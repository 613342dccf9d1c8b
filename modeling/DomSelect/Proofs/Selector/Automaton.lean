import DomSelect.Proofs.Selector.Tiling

/-!
# Tokens are words of an automaton

The kinds of the tokens of a selector are groups, one for each term, and then the end of the input or
an error that breaks off a group (`word_tokens`). A `Call` runs steps until one of them emits a token.
Between calls the state is told by the kind of the last token (`Reached`), so states that emit nothing
never show there.
-/

namespace DomSelect

/-! ## Words -/

/-- The kinds of the tokens of a term. -/
def wholeGroups : List (List TokenKind) :=
  [[.idPrefix, .id], [.elementName], [.elementName, .classPrefix, .className], [.wildcard],
    [.wildcard, .classPrefix, .className], [.wildcardShorthand, .classPrefix, .className]]

/-- The kinds of the tokens of a term up to a missing identifier, and no kinds at all. -/
def brokenGroups : List (List TokenKind) :=
  [[], [.idPrefix], [.elementName, .classPrefix], [.wildcard, .classPrefix],
    [.wildcardShorthand, .classPrefix]]

/-- Groups, and then the end of the input or an error after a group that is broken off. -/
inductive Word : List TokenKind → Prop
  | endOfInput : Word [.endOfInput]
  | error {broken : List TokenKind} (hb : broken ∈ brokenGroups) : Word (broken ++ [.error])
  | group {group kinds : List TokenKind} (hg : group ∈ wholeGroups) (hr : Word kinds) :
      Word (group ++ kinds)

/-- The state after a token of this kind. -/
def Scanner.State.after : TokenKind → Scanner.State
  | .id | .className => .start
  | .idPrefix => .idName
  | .elementName | .wildcard => .elementSuffix
  | .wildcardShorthand => .classPrefix
  | .classPrefix => .className
  | .endOfInput | .error => .done

/-- What the text of an error says, by the kind of the token right before it: which identifier is
missing, or how the character at the error might begin a term. -/
structure Explains (isAlphanumeric : Char → Bool) (selector : List Char)
    (previous : Option TokenKind) (error : Token) : Prop where
  /-- After `#` an id is missing. -/
  id : previous = some .idPrefix → error.text = "expected id"
  /-- After `.` a class name is missing. -/
  className : previous = some .classPrefix → error.text = "expected class name"
  /-- Elsewhere there is a character that begins no term. -/
  term : awaitsIdent previous = false → ∃ read c rest, selector = read ++ c :: rest ∧
    error.position = utf8Width read ∧
    error.text = if c = '-' || isAlphanumeric c then "expected element name"
      else "expected element specification"

namespace Scanner

variable {isAlphanumeric : Char → Bool} {scanner now after : Scanner} {answer : Option Token}
  {token : Token} {given : List (Option Token)} {selector : List Char}

/-! ## Calls -/

/-- One call: steps are run until one emits a token, or until the scanner is done. -/
inductive Call (isAlphanumeric : Char → Bool) : Scanner → Option Token → Scanner → Prop
  | done {scanner : Scanner} (hd : scanner.state = .done) : Call isAlphanumeric scanner none scanner
  | emits {scanner after : Scanner} {token : Token} (hd : scanner.state ≠ .done)
      (h : scanner.step isAlphanumeric = (some token, after)) :
      Call isAlphanumeric scanner (some token) after
  | silent {scanner between after : Scanner} {answer : Option Token} (hd : scanner.state ≠ .done)
      (h : scanner.step isAlphanumeric = (none, between))
      (hc : Call isAlphanumeric between answer after) : Call isAlphanumeric scanner answer after

/-- Calls one after the other, with the answers in order. -/
inductive Calls (isAlphanumeric : Char → Bool) (scanner : Scanner) :
    List (Option Token) → Scanner → Prop
  | start : Calls isAlphanumeric scanner [] scanner
  | call {now after : Scanner} {given : List (Option Token)} {answer : Option Token}
      (h : Calls isAlphanumeric scanner given now) (hc : Call isAlphanumeric now answer after) :
      Calls isAlphanumeric scanner (given ++ [answer]) after

/-! ## The kinds of a stream -/

/-- The kinds of a group that have been emitted when a state is reached. -/
inductive Pending : State → List TokenKind → Prop
  | start : Pending .start []
  | elementName : Pending .elementName []
  | idName : Pending .idName [.idPrefix]
  | elementSuffix {kind : TokenKind} (hk : kind = .elementName ∨ kind = .wildcard) :
      Pending .elementSuffix [kind]
  | className {kind : TokenKind}
      (hk : kind = .elementName ∨ kind = .wildcard ∨ kind = .wildcardShorthand) :
      Pending .className [kind, .classPrefix]

/-- What is left in a scanner completes the group that is pending. -/
theorem word_tokens (isAlphanumeric : Char → Bool) (scanner : Scanner)
    (hr : isResting scanner.state = true) :
    ∀ pending, Pending scanner.state pending →
      Word (pending ++ (scanner.tokens isAlphanumeric).map (·.kind)) := by
  refine stream_induction isAlphanumeric
    (motive := fun scanner => ∀ pending, Pending scanner.state pending →
      Word (pending ++ (scanner.tokens isAlphanumeric).map (·.kind)))
    ?nil ?blank ?hash ?dot ?star ?name ?other ?ident ?noIdent ?suffixDot ?suffix scanner hr
  case nil =>
    rintro position pending ⟨⟩
    rw [tokens_start_nil]
    exact .endOfInput
  case blank =>
    intro c rest position hc ih pending hp
    rw [tokens_start_blank hc]
    exact ih pending hp
  case hash =>
    rintro rest position ih pending ⟨⟩
    rw [tokens_start_hash]
    exact ih _ .idName
  case dot =>
    rintro rest position ih pending ⟨⟩
    rw [tokens_start_dot]
    exact ih _ (.className (.inr (.inr rfl)))
  case star =>
    rintro rest position ih pending ⟨⟩
    rw [tokens_start_star]
    exact ih _ (.elementSuffix (.inr rfl))
  case name =>
    rintro c rest position hc hn ih pending ⟨⟩
    rw [tokens_start_name hc hn]
    exact ih _ .elementName
  case other =>
    rintro c rest position hc hn pending ⟨⟩
    rw [tokens_start_other hc hn]
    exact @Word.error [] (by decide)
  case ident =>
    intro state next kind expected rest taken left position hs hsplit ih pending hp
    rw [tokens_ident hs hsplit]
    cases hs with
    | idName =>
      cases hp
      exact @Word.group [.idPrefix, .id] _ (by decide) (ih _ .start)
    | elementName =>
      cases hp
      exact ih _ (.elementSuffix (.inl rfl))
    | className =>
      obtain ⟨⟩ | ⟨⟩ | ⟨⟩ | ⟨⟩ | @⟨kind, hk⟩ := hp
      refine @Word.group [kind, .classPrefix, .className] _ ?_ (ih _ .start)
      rcases hk with rfl | rfl | rfl <;> decide
  case noIdent =>
    intro state next kind expected rest position hs hsplit pending hp
    rw [tokens_no_ident hs hsplit]
    refine @Word.error pending ?_
    cases hs with
    | idName | elementName =>
      cases hp
      decide
    | className =>
      obtain ⟨⟩ | ⟨⟩ | ⟨⟩ | ⟨⟩ | @⟨kind, hk⟩ := hp
      rcases hk with rfl | rfl | rfl <;> decide
  case suffixDot =>
    intro rest position ih pending hp
    rw [tokens_suffix_dot]
    obtain ⟨⟩ | ⟨⟩ | ⟨⟩ | @⟨kind, hk⟩ | ⟨⟩ := hp
    exact ih [kind, .classPrefix] (.className (hk.imp_right .inl))
  case suffix =>
    intro rest position hdot ih pending hp
    rw [tokens_suffix hdot]
    obtain ⟨⟩ | ⟨⟩ | ⟨⟩ | @⟨kind, hk⟩ | ⟨⟩ := hp
    refine @Word.group [kind] _ ?_ (ih _ .start)
    rcases hk with rfl | rfl <;> decide

/-! ## One step -/

/-- Characters are taken from one scanner to the other, and the position counts their bytes. -/
def Passes (scanner after : Scanner) : Prop :=
  ∃ taken, scanner.rest = taken ++ after.rest ∧
    after.position = scanner.position + utf8Width taken

theorem Passes.goto (scanner : Scanner) (state : State) : Passes scanner (scanner.goto state) :=
  ⟨[], rfl, rfl⟩

theorem Passes.advance {taken rest : List Char} (h : scanner.rest = taken ++ rest) (state : State) :
    Passes scanner (scanner.advance taken rest state) :=
  ⟨taken, h, rfl⟩

theorem Passes.trans (h : Passes scanner now) (ha : Passes now after) : Passes scanner after := by
  obtain ⟨taken, hrest, hposition⟩ := h
  obtain ⟨more, hrest', hposition'⟩ := ha
  refine ⟨taken ++ more, by rw [hrest, hrest', List.append_assoc], ?_⟩
  rw [hposition', hposition, utf8Width_append, Nat.add_assoc]

/-- What any step does: it takes characters, a token tells the state after it, and without a token
the scanner is not done. -/
structure Moves (scanner : Scanner) (emitted : Option Token) (after : Scanner) : Prop where
  passes : Passes scanner after
  state : ∀ token, emitted = some token → after.state = .after token.kind
  goes_on : emitted = none → after.state ≠ .done

theorem moves_goto (scanner : Scanner) (state : State) (hd : state ≠ .done) :
    Moves scanner none (scanner.goto state) :=
  ⟨.goto scanner state, nofun, fun _ => hd⟩

theorem moves_terminal (hk : token.isTerminal = true) (scanner : Scanner) :
    Moves scanner (some token) (scanner.goto .done) where
  passes := .goto scanner .done
  state := by
    rintro _ ⟨⟩
    rcases isTerminal_iff.mp hk with hk | hk <;> rw [hk] <;> rfl
  goes_on := nofun

theorem moves_takeChar (scanner : Scanner) (kind : TokenKind) :
    Moves scanner (scanner.takeChar kind (.after kind)).1
      (scanner.takeChar kind (.after kind)).2 where
  passes := .advance (List.take_append_drop 1 _).symm _
  state := by rintro _ ⟨⟩; rfl
  goes_on := nofun

theorem moves_takeIdent (scanner : Scanner) (kind : TokenKind) (expected : Expected) :
    Moves scanner (scanner.takeIdent kind expected (.after kind)).1
      (scanner.takeIdent kind expected (.after kind)).2 := by
  unfold takeIdent
  split
  · exact moves_terminal rfl scanner
  · next taken rest h =>
    exact ⟨.advance (Ident.split?_append h).symm _, by rintro _ ⟨⟩; rfl, nofun⟩

theorem moves_beginTerm (scanner : Scanner) :
    Moves scanner (scanner.beginTerm isAlphanumeric).1 (scanner.beginTerm isAlphanumeric).2 := by
  unfold beginTerm
  split
  · exact moves_terminal rfl scanner
  · split_ifs
    · exact moves_goto scanner .idPrefix nofun
    · exact ⟨.goto scanner _, by rintro _ ⟨⟩; rfl, nofun⟩
    · exact moves_takeChar scanner .wildcard
    · exact moves_goto scanner .elementName nofun
    · exact moves_terminal rfl scanner

theorem moves_step (hd : scanner.state ≠ .done)
    (h : scanner.step isAlphanumeric = (answer, after)) : Moves scanner answer after := by
  obtain rfl : (scanner.step isAlphanumeric).1 = answer := congrArg Prod.fst h
  obtain rfl : (scanner.step isAlphanumeric).2 = after := congrArg Prod.snd h
  clear h
  obtain ⟨rest, position, state⟩ := scanner
  cases state with
  | start =>
    have hblanks : Passes ⟨rest, position, .start⟩ (skipBlanks ⟨rest, position, .start⟩) :=
      .advance (List.takeWhile_append_dropWhile).symm _
    have hterm := @moves_beginTerm isAlphanumeric (skipBlanks ⟨rest, position, .start⟩)
    exact ⟨hblanks.trans hterm.passes, hterm.state, hterm.goes_on⟩
  | idPrefix => exact moves_takeChar _ .idPrefix
  | classPrefix => exact moves_takeChar _ .classPrefix
  | idName => exact moves_takeIdent _ .id .id
  | elementName => exact moves_takeIdent _ .elementName .elementName
  | className => exact moves_takeIdent _ .className .className
  | elementSuffix =>
    refine moves_goto _ _ ?_
    split <;> nofun
  | done => exact absurd rfl hd

/-! ## One call -/

namespace Call

theorem passes (h : Call isAlphanumeric scanner answer after) : Passes scanner after := by
  induction h with
  | done => exact .goto _ _
  | emits hd h => exact (moves_step hd h).passes
  | silent hd h _ ih => exact (moves_step hd h).passes.trans ih

theorem state_eq (h : Call isAlphanumeric scanner (some token) after) :
    after.state = .after token.kind := by
  generalize hanswer : some token = answer at h
  induction h with
  | done => cases hanswer
  | emits hd h => exact (moves_step hd h).state token hanswer.symm
  | silent _ _ _ ih => exact ih hanswer

/-- Only a scanner that is done has no answer. -/
theorem done_of_none (h : Call isAlphanumeric scanner none after) : scanner.state = .done := by
  generalize hanswer : none = answer at h
  induction h with
  | done hd => exact hd
  | emits => cases hanswer
  | silent hd h _ ih => exact absurd (ih hanswer) ((moves_step hd h).goes_on rfl)

/-- A scanner that is done stays as it is. -/
theorem of_done (h : Call isAlphanumeric scanner answer after) (hd : scanner.state = .done) :
    answer = none ∧ after = scanner := by
  cases h with
  | done => exact ⟨rfl, rfl⟩
  | emits hne => exact absurd hd hne
  | silent hne => exact absurd hd hne

/-- A call finds the next token. -/
theorem next?_eq (h : Call isAlphanumeric scanner answer after) (hr : scanner.Ready) :
    scanner.next? isAlphanumeric = answer.map (·, after) := by
  induction h with
  | done hd => exact next?_done hd
  | emits hd h => exact next?_of_emits hd h
  | silent hd h _ ih =>
    rw [next?_of_silent hr hd h]
    exact ih (advances_step hr hd h).ready

/-- Every call comes to an end. -/
theorem exists_call (isAlphanumeric : Char → Bool) (hr : scanner.Ready) :
    ∃ answer after, Call isAlphanumeric scanner answer after := by
  -- steps in a row that emit nothing are bounded
  induction hs : silence scanner.state using Nat.strong_induction_on generalizing scanner with
  | _ bound ih =>
    subst hs
    by_cases hd : scanner.state = .done
    · exact ⟨none, scanner, .done hd⟩
    · obtain ⟨emitted, between, h⟩ : ∃ emitted between,
          scanner.step isAlphanumeric = (emitted, between) := ⟨_, _, rfl⟩
      cases emitted with
      | some token => exact ⟨some token, between, .emits hd h⟩
      | none =>
        have hadv := advances_step hr hd h
        obtain ⟨answer, after, hc⟩ := ih _ (hadv.silence rfl) hadv.ready rfl
        exact ⟨answer, after, .silent hd h hc⟩

end Call

/-- A call answers what is next, and without an answer it changes nothing. -/
theorem call_iff_next? (hr : scanner.Ready) :
    Call isAlphanumeric scanner answer after ↔
      scanner.next? isAlphanumeric = answer.map (·, after) ∧ (answer = none → after = scanner) := by
  constructor
  · intro h
    refine ⟨h.next?_eq hr, ?_⟩
    rintro rfl
    exact (h.of_done h.done_of_none).2
  · rintro ⟨hnext, hsame⟩
    obtain ⟨answer', after', h⟩ := Call.exists_call isAlphanumeric hr
    rw [h.next?_eq hr] at hnext
    cases answer with
    | none =>
      obtain rfl : answer' = none := Option.map_eq_none_iff.mp hnext
      rw [(h.of_done h.done_of_none).2] at h
      exact hsame rfl ▸ h
    | some token =>
      obtain ⟨_, rfl, he⟩ := Option.map_eq_some_iff.mp hnext
      cases he
      exact h

/-! ## Many calls -/

/-- The state after calls with these answers, the last of which tells it. -/
def stateAfter (given : List (Option Token)) : State :=
  match given.getLast? with
  | none => .start
  | some none => .done
  | some (some token) => .after token.kind

/-- What calls of a scanner of a selector have come to, `tokens` being those of the selector. -/
structure Reached (isAlphanumeric : Char → Bool) (selector : List Char) (tokens : List Token)
    (given : List (Option Token)) (now : Scanner) : Prop where
  ready : now.Ready
  /-- The scanner stands where it says. -/
  passes : Passes ⟨selector, 0, .start⟩ now
  /-- The answers are the tokens, and nothing after the last one. -/
  answers : given = (List.range given.length).map fun k => tokens[k]?
  /-- The other tokens are still to come. -/
  left : now.tokens isAlphanumeric = tokens.drop given.length
  state : now.state = stateAfter given

/-- One more call. -/
theorem Reached.call {tokens : List Token}
    (h : Reached isAlphanumeric selector tokens given now)
    (hc : Call isAlphanumeric now answer after) :
    Reached isAlphanumeric selector tokens (given ++ [answer]) after := by
  have hnext := hc.next?_eq h.ready
  obtain ⟨hready, hhead, htail, hstate⟩ : after.Ready ∧
      (now.tokens isAlphanumeric).head? = answer ∧
      after.tokens isAlphanumeric = (now.tokens isAlphanumeric).tail ∧
      after.state = stateAfter (given ++ [answer]) := by
    unfold stateAfter
    rw [List.getLast?_concat]
    cases answer with
    | none =>
      have hd := hc.done_of_none
      rw [(hc.of_done hd).2, tokens_of_next?_eq_none hnext]
      exact ⟨h.ready, rfl, rfl, hd⟩
    | some token =>
      rw [tokens_of_next? h.ready hnext]
      exact ⟨(need_next? h.ready hnext).1, rfl, rfl, hc.state_eq⟩
  rw [h.left, List.head?_drop] at hhead
  rw [h.left, List.tail_drop] at htail
  refine ⟨hready, h.passes.trans hc.passes, ?_, ?_, hstate⟩
  · rw [List.length_append, List.length_singleton, List.range_succ, List.map_append, ← h.answers,
      List.map_singleton, hhead]
  · rw [List.length_append]
    exact htail

theorem Calls.reached (selector : String)
    (h : Calls isAlphanumeric (.ofSelector selector) given now) :
    Reached isAlphanumeric selector.toList (tokenizeWith isAlphanumeric selector) given now := by
  induction h with
  | start => exact ⟨trivial, ⟨[], rfl, rfl⟩, rfl, rfl, rfl⟩
  | call _ hc ih => exact ih.call hc

/-- There is no last call. -/
theorem Calls.exists_of_length (isAlphanumeric : Char → Bool) (selector : String) (count : Nat) :
    ∃ given now, given.length = count ∧
      Calls isAlphanumeric (.ofSelector selector) given now := by
  induction count with
  | zero => exact ⟨[], _, rfl, .start⟩
  | succ count ih =>
    obtain ⟨given, now, hlength, h⟩ := ih
    obtain ⟨answer, after, hc⟩ := Call.exists_call isAlphanumeric h.reached.ready
    exact ⟨given ++ [answer], after, by rw [List.length_append, hlength]; rfl, .call h hc⟩

/-- After the last token the scanner is done. -/
theorem Reached.done {tokens : List Token}
    (h : Reached isAlphanumeric selector tokens given now) (hl : tokens.length ≤ given.length) :
    now.state = .done := by
  obtain ⟨answer, after, hc⟩ := Call.exists_call isAlphanumeric h.ready
  have hleft := h.left
  rw [List.drop_of_length_le hl] at hleft
  cases answer with
  | none => exact hc.done_of_none
  | some token =>
    rw [tokens_of_next? h.ready (hc.next?_eq h.ready)] at hleft
    cases hleft

/-! ## Errors -/

theorem eq_of_error_ident {state next : State} {kind : TokenKind} {expected : Expected}
    {rest : List Char} {position : Nat} (hs : ReadsIdent state kind expected next)
    (h : tokens isAlphanumeric ⟨rest, position, state⟩ = [token]) (hk : token.kind = .error) :
    token = ⟨.error, expected.text, position⟩ := by
  cases hsplit : Ident.split? rest with
  | none =>
    rw [tokens_no_ident hs hsplit] at h
    exact (List.cons.inj h).1.symm
  | some pair =>
    rw [tokens_ident hs hsplit] at h
    obtain ⟨rfl, -⟩ := List.cons.inj h
    cases hs <;> cases hk

/-- A lone error between terms is at the next character that is no blank. -/
theorem exists_of_error_start {rest : List Char} {position : Nat}
    (h : tokens isAlphanumeric ⟨rest, position, .start⟩ = [token]) (hk : token.kind = .error) :
    ∃ blanks c others, rest = blanks ++ c :: others ∧
      token.position = position + utf8Width blanks ∧
      token.text = if c = '-' || isAlphanumeric c then "expected element name"
        else "expected element specification" := by
  induction rest generalizing position with
  | nil =>
    rw [tokens_start_nil] at h
    cases h
    cases hk
  | cons c rest ih =>
    by_cases hc : isMark c = true
    · simp only [isMark, Bool.or_eq_true, beq_iff_eq] at hc
      rcases hc with ((hblank | rfl) | rfl) | rfl
      · rw [tokens_start_blank hblank] at h
        obtain ⟨blanks, d, others, hrest, hposition, htext⟩ := ih h
        refine ⟨c :: blanks, d, others, by rw [hrest]; rfl, ?_, htext⟩
        rw [hposition, utf8Width_cons, Nat.add_assoc]
      · rw [tokens_start_hash] at h
        obtain ⟨rfl, -⟩ := List.cons.inj h
        cases hk
      · rw [tokens_start_dot] at h
        cases h
      · rw [tokens_start_star] at h
        obtain ⟨rfl, -⟩ := List.cons.inj h
        cases hk
    · rw [Bool.not_eq_true] at hc
      refine ⟨[], c, rest, rfl, ?_⟩
      by_cases hn : c = '-' ∨ isAlphanumeric c = true
      · rw [tokens_start_name hc hn] at h
        rw [eq_of_error_ident .elementName h hk, if_pos (by simpa using hn)]
        exact ⟨rfl, rfl⟩
      · rw [tokens_start_other hc hn] at h
        cases h
        rw [if_neg (by simpa using hn)]
        exact ⟨rfl, rfl⟩

/-- The same wherever no identifier is awaited. -/
theorem exists_of_error {previous : Option TokenKind}
    (hs : now.state = previous.elim .start .after) (hp : awaitsIdent previous = false)
    (hr : now.Ready) (h : now.tokens isAlphanumeric = [token]) (hk : token.kind = .error) :
    ∃ blanks c others, now.rest = blanks ++ c :: others ∧
      token.position = now.position + utf8Width blanks ∧
      token.text = if c = '-' || isAlphanumeric c then "expected element name"
        else "expected element specification" := by
  obtain ⟨rest, position, state⟩ := now
  obtain rfl : state = previous.elim .start .after := hs
  rcases previous with _ | kind
  · exact exists_of_error_start h hk
  · cases kind with
    | id | className => exact exists_of_error_start h hk
    | idPrefix | classPrefix => cases hp
    | elementName | wildcard =>
      by_cases hdot : rest.head? = some '.'
      · obtain ⟨others, rfl⟩ := List.head?_eq_some_iff.mp hdot
        have hlist := (tokens_suffix_dot others position).symm.trans h
        obtain ⟨rfl, -⟩ := List.cons.inj hlist
        cases hk
      · exact exists_of_error_start ((tokens_suffix hdot position).symm.trans h) hk
    | wildcardShorthand =>
      have hlist := (tokens_of_emits rfl hr nofun).symm.trans h
      obtain ⟨rfl, -⟩ := List.cons.inj hlist
      cases hk
    | endOfInput | error =>
      have hlist := (tokens_done rest position).symm.trans h
      cases hlist

/-- Before its last token a scanner is in the state that the token before that one tells. -/
theorem Reached.state_of_concat {before : List Token}
    (h : Reached isAlphanumeric selector (before ++ [token]) given now)
    (hlength : given.length = before.length) :
    now.state = (before.getLast?.map (·.kind)).elim .start .after := by
  rw [h.state, h.answers, hlength]
  rcases List.eq_nil_or_concat before with rfl | ⟨front, last, rfl⟩
  · rfl
  · have hanswer : (front.concat last ++ [token])[front.length]? = some last := by simp
    unfold stateAfter
    rw [List.length_concat, List.range_succ, List.map_append, List.map_singleton,
      List.getLast?_concat, hanswer, List.concat_eq_append, List.getLast?_concat]
    rfl

theorem explains_of_tokens {text : String} {before : List Token}
    (h : tokenizeWith isAlphanumeric text = before ++ [token]) (hk : token.kind = .error) :
    Explains isAlphanumeric text.toList (before.getLast?.map (·.kind)) token := by
  obtain ⟨given, now, hlength, hcalls⟩ :=
    Calls.exists_of_length isAlphanumeric text before.length
  have hreached := hcalls.reached
  rw [h] at hreached
  have hstate := hreached.state_of_concat hlength
  have hleft := hreached.left
  rw [hlength, List.drop_left] at hleft
  obtain ⟨read, hrest, hposition⟩ := hreached.passes
  generalize before.getLast?.map (·.kind) = previous at hstate
  obtain ⟨rest, position, state⟩ := now
  refine ⟨?_, ?_, fun hp => ?_⟩
  · rintro rfl
    obtain rfl : state = .idName := hstate
    rw [eq_of_error_ident .idName hleft hk]
    rfl
  · rintro rfl
    obtain rfl : state = .className := hstate
    rw [eq_of_error_ident .className hleft hk]
    rfl
  · obtain ⟨blanks, c, others, hblanks, herror, htext⟩ :=
      exists_of_error hstate hp hreached.ready hleft hk
    refine ⟨read ++ blanks, c, others, ?_, ?_, htext⟩
    · rw [List.append_assoc, ← hblanks]
      exact hrest
    · rw [herror, hposition, utf8Width_append]
      exact congrArg (· + _) (Nat.zero_add _)

end Scanner

open Scanner in
/-- **The tokens of a selector are a word of the automaton, and the scanner shows its state.** The
kinds are groups and then the end of the input or an error that may break off a group, and the text of
an error goes with the token before it and the character at it. The scanner can be called any number
of times, and each call answers what is next. So the calls give the tokens in order and then nothing;
the last token tells the state; a scanner that has given all tokens is done, and a further call changes
nothing. -/
theorem tokenize_word (selector : String) :
    Word ((tokenize selector).map (·.kind)) ∧
    (∀ before error, tokenize selector = before ++ [error] → error.kind = .error →
      Explains Unicode.isAlphanumeric selector.toList (before.getLast?.map (·.kind)) error) ∧
    (∀ count, ∃ given now, given.length = count ∧
      Calls Unicode.isAlphanumeric (.ofSelector selector) given now) ∧
    ∀ given now, Calls Unicode.isAlphanumeric (.ofSelector selector) given now →
      (∀ answer after, Call Unicode.isAlphanumeric now answer after ↔
        now.next? Unicode.isAlphanumeric = answer.map (·, after) ∧
          (answer = none → after = now)) ∧
      given = (List.range given.length).map (fun k => (tokenize selector)[k]?) ∧
      (∀ token, given.getLast? = some (some token) → now.state = .after token.kind) ∧
      ((tokenize selector).length ≤ given.length → now.state = .done ∧
        ∀ answer after, Call Unicode.isAlphanumeric now answer after →
          answer = none ∧ after = now) := by
  refine ⟨word_tokens _ (.ofSelector selector) rfl [] .start, fun _ _ => explains_of_tokens,
    Calls.exists_of_length _ selector, fun given now h => ?_⟩
  have hreached := h.reached
  refine ⟨fun _ _ => call_iff_next? hreached.ready, hreached.answers, fun token hlast => ?_,
    fun hl => ?_⟩
  · rw [hreached.state, stateAfter, hlast]
  · exact ⟨hreached.done hl, fun answer after hc => hc.of_done (hreached.done hl)⟩

open Scanner in
/-- An implied wildcard whose class name is missing, after a written one. -/
theorem tokenize_word_missing_class :
    tokenize "* .-" = [⟨.wildcard, "*", 0⟩, ⟨.wildcardShorthand, "", 2⟩, ⟨.classPrefix, ".", 2⟩,
        ⟨.error, "expected class name", 3⟩] ∧
      Word [.wildcard, .wildcardShorthand, .classPrefix, .error] ∧
      Explains Unicode.isAlphanumeric "* .-".toList (some .classPrefix)
        ⟨.error, "expected class name", 3⟩ ∧
      ∃ given now, given.length = 6 ∧
        Calls Unicode.isAlphanumeric (.ofSelector "* .-") given now ∧ now.state = .done := by
  obtain ⟨hword, hexplains, hcalls, hreached⟩ := tokenize_word "* .-"
  have htokens : tokenize "* .-" = [⟨.wildcard, "*", 0⟩, ⟨.wildcardShorthand, "", 2⟩,
    ⟨.classPrefix, ".", 2⟩, ⟨.error, "expected class name", 3⟩] := rfl
  obtain ⟨given, now, hlength, h⟩ := hcalls 6
  have hall : (tokenize "* .-").length ≤ given.length := by
    rw [hlength, htokens]
    decide
  exact ⟨htokens, hword, hexplains [_, _, _] _ htokens rfl, given, now, hlength, h,
    ((hreached given now h).2.2.2 hall).1⟩

end DomSelect
