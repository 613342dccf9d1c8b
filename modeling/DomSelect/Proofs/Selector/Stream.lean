import DomSelect.Proofs.Selector.Grammar
import DomSelect.Selector.Scanner

/-!
# Streams of tokens

`Scanner.tokens` repeats steps with a limit on the tokens and on the steps for each of them. In a
`Ready` scanner, which is at a mark where its state says so, neither limit is reached
(`tokens_of_emits`, `tokens_of_silent`): `need` bounds the tokens that are left, and goes down with
each token. The stream thus has an equation for each state and each first character.
-/

namespace DomSelect.Scanner

variable {isAlphanumeric : Char → Bool} {scanner after : Scanner} {token : Token}
  {rest taken : List Char} {position steps count : Nat} {c : Char}

/-- States that read a mark are at this mark. -/
def Ready (scanner : Scanner) : Prop :=
  match scanner.state with
  | .idPrefix => scanner.rest.head? = some '#'
  | .classPrefix => scanner.rest.head? = some '.'
  | _ => True

/-- A bound on the tokens that are left. -/
def need (scanner : Scanner) : Nat :=
  match scanner.state with
  | .done => 0
  | .idPrefix | .classPrefix => 2 * scanner.rest.length
  | _ => 2 * scanner.rest.length + 1

/-- A bound on the steps in a row that emit nothing. -/
def silence : State → Nat
  | .start => 1
  | .elementSuffix => 2
  | _ => 0

/-! ## One step -/

theorem silence_le (state : State) : silence state ≤ 2 := by
  cases state <;> decide

theorem need_le (scanner : Scanner) : scanner.need ≤ 2 * scanner.rest.length + 1 := by
  unfold need
  split <;> omega

theorem length_split? {left : List Char} (h : Ident.split? rest = some (taken, left)) :
    left.length < rest.length := by
  have := List.length_pos_iff.mpr (Ident.derives_of_split? h).ne_nil
  rw [← Ident.split?_append h, List.length_append]
  omega

/-- What a step from a ready scanner does: the scanner stays ready, a token is one less to come, and
a step without a token comes nearer to one. -/
structure Advances (scanner : Scanner) (emitted : Option Token) (after : Scanner) : Prop where
  ready : after.Ready
  need : emitted.toList.length + after.need ≤ scanner.need
  silence : emitted = none → silence after.state < silence scanner.state

theorem advances_fail (hneed : 0 < scanner.need) (expected : Expected) :
    Advances scanner (scanner.fail expected).1 (scanner.fail expected).2 where
  ready := trivial
  need := hneed
  silence := nofun

theorem advances_takeIdent (hneed : scanner.need = 2 * scanner.rest.length + 1)
    (kind : TokenKind) (expected : Expected) {next : State}
    (hready : ∀ rest position, Ready ⟨rest, position, next⟩) :
    Advances scanner (scanner.takeIdent kind expected next).1
      (scanner.takeIdent kind expected next).2 := by
  unfold takeIdent
  split
  · exact advances_fail (by omega) expected
  · next taken left h =>
    refine ⟨hready _ _, ?_, nofun⟩
    have hlen := length_split? h
    have := need_le (scanner.advance taken left next)
    simp only [advance] at this
    simp only [advance, Option.toList_some, List.length_singleton]
    omega

theorem advances_takeChar (hrest : scanner.rest ≠ [])
    (hneed : 2 * scanner.rest.length ≤ scanner.need) (kind : TokenKind) {next : State}
    (hready : ∀ rest position, Ready ⟨rest, position, next⟩) :
    Advances scanner (scanner.takeChar kind next).1 (scanner.takeChar kind next).2 := by
  refine ⟨hready _ _, ?_, nofun⟩
  have hpos := List.length_pos_iff.mpr hrest
  have := need_le (scanner.takeChar kind next).2
  simp only [takeChar, advance, List.length_drop] at this
  simp only [takeChar, advance, Option.toList_some, List.length_singleton]
  omega

theorem advances_beginTerm (hstate : scanner.state = .start) :
    Advances scanner (scanner.skipBlanks.beginTerm isAlphanumeric).1
      (scanner.skipBlanks.beginTerm isAlphanumeric).2 := by
  obtain ⟨rest, position, _⟩ := scanner
  subst hstate
  have hlen : (rest.dropWhile isBlank).length ≤ rest.length :=
    (List.dropWhile_suffix isBlank).length_le
  unfold beginTerm skipBlanks advance
  simp only
  cases hdrop : rest.dropWhile isBlank with
  | nil => exact ⟨trivial, Nat.le_add_left .., nofun⟩
  | cons c others =>
    rw [hdrop, List.length_cons] at hlen
    simp only [List.head?_cons]
    split
    · next hc =>
      subst hc
      exact ⟨rfl, by simp [goto, need]; omega, fun _ => Nat.zero_lt_one⟩
    · split
      · next hc =>
        subst hc
        exact ⟨rfl, by simp [goto, need]; omega, nofun⟩
      · split
        · exact ⟨trivial, by simp [takeChar, advance, need]; omega, nofun⟩
        · split
          · exact ⟨trivial, by simp [goto, need]; omega, fun _ => Nat.zero_lt_one⟩
          · exact ⟨trivial, by simp [fail, goto, need], nofun⟩

theorem advances_step (hr : scanner.Ready) (hd : scanner.state ≠ .done) {emitted : Option Token}
    (h : scanner.step isAlphanumeric = (emitted, after)) : Advances scanner emitted after := by
  obtain rfl : (scanner.step isAlphanumeric).1 = emitted := congrArg Prod.fst h
  obtain rfl : (scanner.step isAlphanumeric).2 = after := congrArg Prod.snd h
  clear h
  obtain ⟨rest, position, state⟩ := scanner
  cases state with
  | start => exact advances_beginTerm rfl
  | idPrefix =>
    refine advances_takeChar ?_ (Nat.le_refl _) _ fun _ _ => trivial
    rintro rfl
    cases hr
  | idName => exact advances_takeIdent rfl _ _ fun _ _ => trivial
  | elementName => exact advances_takeIdent rfl _ _ fun _ _ => trivial
  | elementSuffix =>
    unfold step
    simp only
    split
    · next hdot => exact ⟨hdot, by simp [goto, need], fun _ => Nat.zero_lt_two⟩
    · exact ⟨trivial, by simp [goto, need], fun _ => Nat.one_lt_two⟩
  | classPrefix =>
    refine advances_takeChar ?_ (Nat.le_refl _) _ fun _ _ => trivial
    rintro rfl
    cases hr
  | className => exact advances_takeIdent rfl _ _ fun _ _ => trivial
  | done => exact absurd rfl hd

/-! ## Repeated steps -/

theorem nextWithin_eq (hr : scanner.Ready) (hs : silence scanner.state < steps)
    (hc : silence scanner.state < count) :
    nextWithin isAlphanumeric steps scanner = nextWithin isAlphanumeric count scanner := by
  -- a step without a token has fewer silent steps to come, so neither bound runs out
  induction steps generalizing count scanner with
  | zero => exact absurd hs (Nat.not_lt_zero _)
  | succ steps ih =>
    cases count with
    | zero => exact absurd hc (Nat.not_lt_zero _)
    | succ count =>
      unfold nextWithin
      by_cases hd : scanner.state = .done
      · rw [if_pos hd, if_pos hd]
      · rw [if_neg hd, if_neg hd]
        cases hstep : scanner.step isAlphanumeric with
        | mk emitted after =>
          have hadv := advances_step hr hd hstep
          cases emitted with
          | some token => rfl
          | none =>
            have hless := hadv.silence rfl
            exact ih hadv.ready (by omega) (by omega)

theorem next?_of_emits (hd : scanner.state ≠ .done)
    (h : scanner.step isAlphanumeric = (some token, after)) :
    scanner.next? isAlphanumeric = some (token, after) := by
  rw [next?, nextWithin, if_neg hd, h]

theorem next?_of_silent (hr : scanner.Ready) (hd : scanner.state ≠ .done)
    (h : scanner.step isAlphanumeric = (none, after)) :
    scanner.next? isAlphanumeric = after.next? isAlphanumeric := by
  have hadv := advances_step hr hd h
  have hless := hadv.silence rfl
  have := silence_le scanner.state
  rw [next?, nextWithin, if_neg hd, h]
  exact nextWithin_eq hadv.ready (by omega) (by omega)

theorem next?_done (hd : scanner.state = .done) : scanner.next? isAlphanumeric = none := by
  rw [next?, nextWithin, if_pos hd]

/-- Each token leaves a ready scanner with less tokens to come. -/
theorem need_next? (hr : scanner.Ready) (h : scanner.next? isAlphanumeric = some (token, after)) :
    after.Ready ∧ after.need < scanner.need := by
  unfold next? at h
  generalize 3 = steps at h
  induction steps generalizing scanner with
  | zero => cases h
  | succ steps ih =>
    unfold nextWithin at h
    split at h
    · cases h
    · next hd =>
      split at h
      · next emitted next hstep =>
        obtain ⟨rfl, rfl⟩ := Prod.mk.inj (Option.some.inj h)
        have hadv := advances_step hr hd hstep
        have hless := hadv.need
        rw [Option.toList_some, List.length_singleton] at hless
        exact ⟨hadv.ready, by omega⟩
      · next between hstep =>
        have hadv := advances_step hr hd hstep
        have hle := hadv.need
        rw [Option.toList_none, List.length_nil] at hle
        obtain ⟨hready, hless⟩ := ih hadv.ready h
        exact ⟨hready, by omega⟩

theorem done_of_need_eq_zero (hr : scanner.Ready) (h : scanner.need = 0) :
    scanner.state = .done := by
  obtain ⟨rest, position, state⟩ := scanner
  cases state with
  | done => rfl
  | idPrefix | classPrefix =>
    obtain rfl : rest = [] := List.length_eq_zero_iff.mp (by simp only [need] at h; omega)
    cases hr
  | start | idName | elementName | elementSuffix | className => cases h

theorem drain_eq (hr : scanner.Ready) (hs : scanner.need ≤ steps) (hc : scanner.need ≤ count) :
    scanner.drain isAlphanumeric steps = scanner.drain isAlphanumeric count := by
  induction steps generalizing count scanner with
  | zero =>
    have hd := done_of_need_eq_zero hr (Nat.le_zero.mp hs)
    cases count with
    | zero => rfl
    | succ count => rw [drain, drain, next?_done hd]
  | succ steps ih =>
    cases count with
    | zero =>
      have hd := done_of_need_eq_zero hr (Nat.le_zero.mp hc)
      rw [drain, drain, next?_done hd]
    | succ count =>
      unfold drain
      cases hnext : scanner.next? isAlphanumeric with
      | none => rfl
      | some pair =>
        obtain ⟨token, after⟩ := pair
        obtain ⟨hready, hless⟩ := need_next? hr hnext
        exact congrArg _ (ih hready (by omega) (by omega))

theorem length_drain_le (count : Nat) (scanner : Scanner) :
    (scanner.drain isAlphanumeric count).length ≤ count := by
  induction count generalizing scanner with
  | zero => exact Nat.le_refl 0
  | succ count ih =>
    unfold drain
    split
    · exact Nat.zero_le _
    · exact Nat.succ_le_succ (ih _)

theorem length_tokenize_le (selector : String) :
    (tokenize selector).length ≤ 2 * selector.length + 1 := by
  rw [← String.length_toList]
  exact length_drain_le ..

/-- The next token is the first one of those that are left. -/
theorem tokens_of_next? (hr : scanner.Ready)
    (h : scanner.next? isAlphanumeric = some (token, after)) :
    scanner.tokens isAlphanumeric = token :: after.tokens isAlphanumeric := by
  obtain ⟨hready, hless⟩ := need_next? hr h
  have hle := need_le scanner
  unfold tokens
  rw [drain, h]
  exact congrArg _ (drain_eq hready (by omega) (need_le after))

theorem tokens_of_next?_eq_none (h : scanner.next? isAlphanumeric = none) :
    scanner.tokens isAlphanumeric = [] := by
  rw [tokens, drain, h]

theorem tokens_of_emits (h : scanner.step isAlphanumeric = (some token, after)) (hr : scanner.Ready)
    (hd : scanner.state ≠ .done) :
    scanner.tokens isAlphanumeric = token :: after.tokens isAlphanumeric :=
  tokens_of_next? hr (next?_of_emits hd h)

theorem tokens_of_silent (h : scanner.step isAlphanumeric = (none, after)) (hr : scanner.Ready)
    (hd : scanner.state ≠ .done) :
    scanner.tokens isAlphanumeric = after.tokens isAlphanumeric := by
  have hadv := advances_step hr hd h
  have hle := hadv.need
  rw [Option.toList_none, List.length_nil] at hle
  have hle' := need_le scanner
  have hdrain : scanner.drain isAlphanumeric (2 * scanner.rest.length + 1) =
      after.drain isAlphanumeric (2 * scanner.rest.length + 1) := by
    rw [drain, drain, next?_of_silent hr hd h]
  unfold tokens
  rw [hdrain]
  exact drain_eq hadv.ready (by omega) (need_le after)

@[simp] theorem tokens_done (rest : List Char) (position : Nat) :
    tokens isAlphanumeric ⟨rest, position, .done⟩ = [] :=
  tokens_of_next?_eq_none (next?_done rfl)

/-! ## The stream of each state -/

/-- An error is the last token. -/
theorem tokens_of_fails {expected : Expected}
    (h : scanner.step isAlphanumeric = scanner.fail expected) (hr : scanner.Ready)
    (hd : scanner.state ≠ .done) :
    scanner.tokens isAlphanumeric = [⟨.error, expected.text, scanner.position⟩] := by
  rw [tokens_of_emits h hr hd]
  exact congrArg _ (tokens_done ..)

theorem tokens_start_nil (position : Nat) :
    tokens isAlphanumeric ⟨[], position, .start⟩ = [⟨.endOfInput, "", position⟩] := by
  have hstep : step isAlphanumeric ⟨[], position, .start⟩ =
      (some ⟨.endOfInput, "", position⟩, ⟨[], position, .done⟩) := rfl
  rw [tokens_of_emits hstep trivial nofun, tokens_done]

theorem tokens_start_blank (hc : isBlank c = true) (rest : List Char) (position : Nat) :
    tokens isAlphanumeric ⟨c :: rest, position, .start⟩ =
      tokens isAlphanumeric ⟨rest, position + c.utf8Size, .start⟩ := by
  have hstep : step isAlphanumeric ⟨c :: rest, position, .start⟩ =
      step isAlphanumeric ⟨rest, position + c.utf8Size, .start⟩ := by
    unfold step skipBlanks advance
    simp only [List.takeWhile_cons_of_pos hc, List.dropWhile_cons_of_pos hc, utf8Width_cons,
      Nat.add_assoc]
  cases h : step isAlphanumeric ⟨rest, position + c.utf8Size, .start⟩ with
  | mk emitted after =>
    rw [h] at hstep
    cases emitted with
    | none => rw [tokens_of_silent hstep trivial nofun, tokens_of_silent h trivial nofun]
    | some token => rw [tokens_of_emits hstep trivial nofun, tokens_of_emits h trivial nofun]

theorem tokens_start_hash (rest : List Char) (position : Nat) :
    tokens isAlphanumeric ⟨'#' :: rest, position, .start⟩ =
      ⟨.idPrefix, "#", position⟩ :: tokens isAlphanumeric ⟨rest, position + 1, .idName⟩ := by
  have hstep : step isAlphanumeric ⟨'#' :: rest, position, .start⟩ =
      (none, ⟨'#' :: rest, position, .idPrefix⟩) := rfl
  rw [tokens_of_silent hstep trivial nofun]
  exact tokens_of_emits rfl rfl nofun

theorem tokens_start_star (rest : List Char) (position : Nat) :
    tokens isAlphanumeric ⟨'*' :: rest, position, .start⟩ =
      ⟨.wildcard, "*", position⟩ :: tokens isAlphanumeric ⟨rest, position + 1, .elementSuffix⟩ :=
  tokens_of_emits rfl trivial nofun

theorem tokens_start_dot (rest : List Char) (position : Nat) :
    tokens isAlphanumeric ⟨'.' :: rest, position, .start⟩ =
      ⟨.wildcardShorthand, "", position⟩ :: ⟨.classPrefix, ".", position⟩ ::
        tokens isAlphanumeric ⟨rest, position + 1, .className⟩ := by
  have hstep : step isAlphanumeric ⟨'.' :: rest, position, .start⟩ =
      (some ⟨.wildcardShorthand, "", position⟩, ⟨'.' :: rest, position, .classPrefix⟩) := rfl
  rw [tokens_of_emits hstep trivial nofun]
  exact congrArg _ (tokens_of_emits rfl rfl nofun)

/-- The characters that the state between terms knows by themselves. -/
def isMark (c : Char) : Bool := isBlank c || c == '#' || c == '.' || c == '*'

theorem step_start_of_not_isMark (hc : isMark c = false) (rest : List Char) (position : Nat) :
    step isAlphanumeric ⟨c :: rest, position, .start⟩ =
      if c = '-' || isAlphanumeric c then (none, ⟨c :: rest, position, .elementName⟩)
      else fail ⟨c :: rest, position, .start⟩ .elementSpecification := by
  simp only [isMark, Bool.or_eq_false_iff, beq_eq_false_iff_ne] at hc
  obtain ⟨⟨⟨hblank, hhash⟩, hdot⟩, hstar⟩ := hc
  have hneg : ¬ isBlank c = true := by rw [hblank]; exact Bool.false_ne_true
  unfold step skipBlanks advance beginTerm
  simp only [List.takeWhile_cons_of_neg hneg, List.dropWhile_cons_of_neg hneg, List.head?_cons,
    if_neg hhash, if_neg hdot, if_neg hstar]
  rfl

theorem tokens_start_name (hc : isMark c = false) (hn : c = '-' ∨ isAlphanumeric c = true)
    (rest : List Char) (position : Nat) :
    tokens isAlphanumeric ⟨c :: rest, position, .start⟩ =
      tokens isAlphanumeric ⟨c :: rest, position, .elementName⟩ := by
  refine tokens_of_silent ?_ trivial nofun
  rw [step_start_of_not_isMark hc, if_pos (by simpa using hn)]

theorem tokens_start_other (hc : isMark c = false) (hn : ¬ (c = '-' ∨ isAlphanumeric c = true))
    (rest : List Char) (position : Nat) :
    tokens isAlphanumeric ⟨c :: rest, position, .start⟩ =
      [⟨.error, Expected.elementSpecification.text, position⟩] := by
  refine tokens_of_fails ?_ trivial nofun
  rw [step_start_of_not_isMark hc, if_neg (by simpa using hn)]

/-- The states that read an identifier, with the kind of token, what is expected and the state that
follows. -/
inductive ReadsIdent : State → TokenKind → Expected → State → Prop
  | idName : ReadsIdent .idName .id .id .start
  | elementName : ReadsIdent .elementName .elementName .elementName .elementSuffix
  | className : ReadsIdent .className .className .className .start

theorem tokens_ident {state next : State} {kind : TokenKind} {expected : Expected}
    (hs : ReadsIdent state kind expected next) {left : List Char}
    (h : Ident.split? rest = some (taken, left)) (position : Nat) :
    tokens isAlphanumeric ⟨rest, position, state⟩ =
      ⟨kind, String.ofList taken, position⟩ ::
        tokens isAlphanumeric ⟨left, position + utf8Width taken, next⟩ := by
  cases hs <;> exact tokens_of_emits (by simp [step, takeIdent, h, advance]) trivial nofun

theorem tokens_no_ident {state next : State} {kind : TokenKind} {expected : Expected}
    (hs : ReadsIdent state kind expected next) (h : Ident.split? rest = none) (position : Nat) :
    tokens isAlphanumeric ⟨rest, position, state⟩ = [⟨.error, expected.text, position⟩] := by
  cases hs <;> exact tokens_of_fails (by simp [step, takeIdent, h]) trivial nofun

theorem tokens_suffix_dot (rest : List Char) (position : Nat) :
    tokens isAlphanumeric ⟨'.' :: rest, position, .elementSuffix⟩ =
      ⟨.classPrefix, ".", position⟩ ::
        tokens isAlphanumeric ⟨rest, position + 1, .className⟩ := by
  have hstep : step isAlphanumeric ⟨'.' :: rest, position, .elementSuffix⟩ =
      (none, ⟨'.' :: rest, position, .classPrefix⟩) := rfl
  rw [tokens_of_silent hstep trivial nofun]
  exact tokens_of_emits rfl rfl nofun

theorem tokens_suffix (h : rest.head? ≠ some '.') (position : Nat) :
    tokens isAlphanumeric ⟨rest, position, .elementSuffix⟩ =
      tokens isAlphanumeric ⟨rest, position, .start⟩ := by
  refine tokens_of_silent ?_ trivial nofun
  simp [step, goto, h]

/-! ## Induction along the stream -/

/-- The states in which a scanner is at no mark and has not ended. -/
def isResting : State → Bool
  | .idPrefix | .classPrefix | .done => false
  | _ => true

/-- What passes from the scanner of the rest of the stream to the whole holds of every scanner. -/
theorem stream_induction (isAlphanumeric : Char → Bool) {motive : Scanner → Prop}
    (nil : ∀ position, motive ⟨[], position, .start⟩)
    (blank : ∀ c rest position, isBlank c = true →
      motive ⟨rest, position + c.utf8Size, .start⟩ → motive ⟨c :: rest, position, .start⟩)
    (hash : ∀ rest position, motive ⟨rest, position + 1, .idName⟩ →
      motive ⟨'#' :: rest, position, .start⟩)
    (dot : ∀ rest position, motive ⟨rest, position + 1, .className⟩ →
      motive ⟨'.' :: rest, position, .start⟩)
    (star : ∀ rest position, motive ⟨rest, position + 1, .elementSuffix⟩ →
      motive ⟨'*' :: rest, position, .start⟩)
    (name : ∀ c rest position, isMark c = false → (c = '-' ∨ isAlphanumeric c = true) →
      motive ⟨c :: rest, position, .elementName⟩ → motive ⟨c :: rest, position, .start⟩)
    (other : ∀ c rest position, isMark c = false → ¬ (c = '-' ∨ isAlphanumeric c = true) →
      motive ⟨c :: rest, position, .start⟩)
    (ident : ∀ {state next kind expected} rest taken left position,
      ReadsIdent state kind expected next → Ident.split? rest = some (taken, left) →
      motive ⟨left, position + utf8Width taken, next⟩ → motive ⟨rest, position, state⟩)
    (noIdent : ∀ {state next kind expected} rest position,
      ReadsIdent state kind expected next → Ident.split? rest = none →
      motive ⟨rest, position, state⟩)
    (suffixDot : ∀ rest position, motive ⟨rest, position + 1, .className⟩ →
      motive ⟨'.' :: rest, position, .elementSuffix⟩)
    (suffix : ∀ rest position, rest.head? ≠ some '.' → motive ⟨rest, position, .start⟩ →
      motive ⟨rest, position, .elementSuffix⟩)
    (scanner : Scanner) (h : isResting scanner.state = true) : motive scanner := by
  -- each step takes characters or comes nearer to the next token
  induction hm : 3 * scanner.rest.length + silence scanner.state using Nat.strong_induction_on
    generalizing scanner with
  | _ measure ih =>
    subst hm
    obtain ⟨rest, position, state⟩ := scanner
    have hshort : ∀ {left position' state'}, left.length < rest.length →
        isResting state' = true → motive ⟨left, position', state'⟩ := by
      intro left position' state' hless hrest
      refine ih _ ?_ ⟨left, position', state'⟩ hrest rfl
      have := silence_le state'
      simp only
      omega
    have hident : ∀ {next kind expected}, ReadsIdent state kind expected next →
        motive ⟨rest, position, state⟩ := by
      intro next kind expected hs
      cases hsplit : Ident.split? rest with
      | none => exact noIdent rest position hs hsplit
      | some pair =>
        refine ident rest pair.1 pair.2 position hs hsplit (hshort (length_split? hsplit) ?_)
        cases hs <;> rfl
    cases state with
    | idPrefix | classPrefix | done => cases h
    | idName => exact hident .idName
    | elementName => exact hident .elementName
    | className => exact hident .className
    | elementSuffix =>
      by_cases hdot : rest.head? = some '.'
      · cases rest with
        | nil => cases hdot
        | cons c others =>
          obtain rfl : c = '.' := Option.some.inj hdot
          exact suffixDot others position (hshort (Nat.lt_succ_self _) rfl)
      · exact suffix rest position hdot (ih _ (by simp [silence]) _ rfl rfl)
    | start =>
      cases rest with
      | nil => exact nil position
      | cons c others =>
        have hless : others.length < (c :: others).length := Nat.lt_succ_self _
        by_cases hc : isMark c = true
        · simp only [isMark, Bool.or_eq_true, beq_iff_eq] at hc
          rcases hc with ((hblank | rfl) | rfl) | rfl
          · exact blank c others position hblank (hshort hless rfl)
          · exact hash others position (hshort hless rfl)
          · exact dot others position (hshort hless rfl)
          · exact star others position (hshort hless rfl)
        · rw [Bool.not_eq_true] at hc
          by_cases hn : c = '-' ∨ isAlphanumeric c = true
          · exact name c others position hc hn (ih _ (by simp [silence]) _ rfl rfl)
          · exact other c others position hc hn

end DomSelect.Scanner
