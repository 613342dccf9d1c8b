import DomSelect.Proofs.Selector.Compiling
import DomSelect.Proofs.Selector.Language
import DomSelect.Proofs.Selector.Tiling

/-!
# Selectors with blanks between them

A scanner that meets a blank has nothing left to decide: no identifier goes on with one, and the
state between terms skips it. If the text before the blank is scanned to its end, what follows is
scanned as a selector of its own, further on in the text (`extends_tokens`, `tokens_shift`); if
there is an error before the blank, what follows is never read.

Compilations go the same way (`compileFrom_behind`). The terms of what follows come behind those of
the text before, and how many blanks there are makes no difference.
-/

namespace DomSelect

/-- The same token further on in a text. -/
def Token.shift (offset : Nat) (token : Token) : Token :=
  { token with position := token.position + offset }

/-- The same error further on in a text. -/
def LexError.shift (offset : Nat) (error : LexError) : LexError :=
  { error with offset := error.offset + offset }

/-- The outcome of the same tokens further on in a text and behind some terms. -/
def Compiled.behind (compiled : Compiled) (earlier : List Term) (offset : Nat) : Compiled :=
  ⟨⟨earlier ++ compiled.chain.terms⟩, compiled.error.map (LexError.shift offset)⟩

namespace Scanner

variable {isAlphanumeric : Char → Bool} {c : Char} {more : List Char}

/-! ## Further on in a text -/

/-- The same scanner further on in a text. -/
def shift (offset : Nat) (scanner : Scanner) : Scanner :=
  { scanner with position := scanner.position + offset }

/-- The same step further on in a text. -/
def shiftStep (offset : Nat) (result : Option Token × Scanner) : Option Token × Scanner :=
  (result.1.map (Token.shift offset), result.2.shift offset)

section Shift

variable (offset : Nat) (scanner : Scanner)

@[simp] theorem rest_shift : (scanner.shift offset).rest = scanner.rest := rfl

@[simp] theorem state_shift : (scanner.shift offset).state = scanner.state := rfl

theorem advance_shift (taken rest : List Char) (state : State) :
    (scanner.shift offset).advance taken rest state =
      (scanner.advance taken rest state).shift offset := by
  simp only [advance, shift, Nat.add_right_comm]

theorem takeChar_shift (kind : TokenKind) (next : State) :
    (scanner.shift offset).takeChar kind next = shiftStep offset (scanner.takeChar kind next) := by
  unfold takeChar
  rw [advance_shift]
  rfl

theorem takeIdent_shift (kind : TokenKind) (expected : Expected) (next : State) :
    (scanner.shift offset).takeIdent kind expected next =
      shiftStep offset (scanner.takeIdent kind expected next) := by
  unfold takeIdent
  rw [rest_shift]
  cases Ident.split? scanner.rest with
  | none => rfl
  | some parts =>
    simp only [advance_shift]
    rfl

theorem beginTerm_shift (isAlphanumeric : Char → Bool) :
    (scanner.shift offset).beginTerm isAlphanumeric =
      shiftStep offset (scanner.beginTerm isAlphanumeric) := by
  unfold beginTerm
  rw [rest_shift]
  cases scanner.rest.head? with
  | none => rfl
  | some c =>
    simp only [takeChar_shift]
    split_ifs <;> rfl

/-- A step uses the position for the token it emits only. -/
theorem step_shift (isAlphanumeric : Char → Bool) :
    (scanner.shift offset).step isAlphanumeric =
      shiftStep offset (scanner.step isAlphanumeric) := by
  unfold step
  rw [state_shift]
  cases scanner.state with
  | start =>
    simp only [skipBlanks]
    exact (congrArg _ (advance_shift ..)).trans (beginTerm_shift ..)
  | idPrefix | classPrefix => exact takeChar_shift ..
  | idName | elementName | className => exact takeIdent_shift ..
  | elementSuffix | done => rfl

theorem nextWithin_shift (isAlphanumeric : Char → Bool) (steps : Nat) :
    nextWithin isAlphanumeric steps (scanner.shift offset) =
      (nextWithin isAlphanumeric steps scanner).map
        (Prod.map (Token.shift offset) (shift offset)) := by
  induction steps generalizing scanner with
  | zero => rfl
  | succ steps ih =>
    unfold nextWithin
    rw [step_shift, state_shift]
    split
    · rfl
    · cases hstep : scanner.step isAlphanumeric with
      | mk emitted after =>
        cases emitted with
        | none => exact ih after
        | some token => rfl

/-- The tokens depend on the position by their own positions only. -/
theorem tokens_shift (isAlphanumeric : Char → Bool) :
    (scanner.shift offset).tokens isAlphanumeric =
      (scanner.tokens isAlphanumeric).map (Token.shift offset) := by
  unfold tokens
  rw [rest_shift]
  generalize 2 * scanner.rest.length + 1 = count
  induction count generalizing scanner with
  | zero => rfl
  | succ count ih =>
    unfold drain next?
    rw [nextWithin_shift]
    cases nextWithin isAlphanumeric 3 scanner with
    | none => rfl
    | some pair => exact congrArg _ (ih pair.2)

end Shift

theorem tokens_start_blanks (blanks : List Char) (hb : ∀ c ∈ blanks, isBlank c = true)
    (rest : List Char) (position : Nat) :
    tokens isAlphanumeric ⟨blanks ++ rest, position, .start⟩ =
      tokens isAlphanumeric ⟨rest, position + utf8Width blanks, .start⟩ := by
  induction blanks generalizing position with
  | nil => rfl
  | cons c blanks ih =>
    obtain ⟨hc, hb⟩ := List.forall_mem_cons.mp hb
    rw [List.cons_append, tokens_start_blank hc, ih hb, utf8Width_cons, Nat.add_assoc]

/-! ## In front of a blank -/

/-- Tokens up to a terminal one, and what they are if the text goes on: what `follow` holds comes in
the place of the end of the input, and nothing comes behind an error. -/
inductive Extends (follow : List Token) : List Token → List Token → Prop
  | endOfInput (position : Nat) : Extends follow [⟨.endOfInput, "", position⟩] follow
  | error (text : String) (position : Nat) :
      Extends follow [⟨.error, text, position⟩] [⟨.error, text, position⟩]
  | token (token : Token) {tokens longer : List Token} (ht : token.isTerminal = false)
      (h : Extends follow tokens longer) : Extends follow (token :: tokens) (token :: longer)

theorem split?_append_blank (hc : isBlank c = true) (rest more : List Char) :
    Ident.split? (rest ++ c :: more) =
      (Ident.split? rest).map fun parts => (parts.1, parts.2 ++ c :: more) := by
  refine Ident.split?_append_rest rest fun unit hu => ?_
  obtain rfl : c = unit := Option.some.inj hu
  exact isPart_of_isMark (by simp [isMark, hc])

theorem head?_append_blank (hc : isBlank c = true) {rest : List Char}
    (hdot : rest.head? ≠ some '.') : (rest ++ c :: more).head? ≠ some '.' := by
  cases rest with
  | nil =>
    intro h
    obtain rfl : c = '.' := Option.some.inj h
    cases hc
  | cons first rest => exact hdot

/-- A blank ends everything that is being read. -/
theorem extends_tokens (isAlphanumeric : Char → Bool) (hc : isBlank c = true) (more : List Char)
    (scanner : Scanner) (hr : isResting scanner.state = true) :
    Extends
      (tokens isAlphanumeric ⟨c :: more, scanner.position + utf8Width scanner.rest, .start⟩)
      (scanner.tokens isAlphanumeric)
      (tokens isAlphanumeric ⟨scanner.rest ++ c :: more, scanner.position, scanner.state⟩) := by
  refine stream_induction isAlphanumeric
    (motive := fun scanner => Extends
      (tokens isAlphanumeric ⟨c :: more, scanner.position + utf8Width scanner.rest, .start⟩)
      (scanner.tokens isAlphanumeric)
      (tokens isAlphanumeric ⟨scanner.rest ++ c :: more, scanner.position, scanner.state⟩))
    ?nil ?blank ?hash ?dot ?star ?name ?other ?ident ?noIdent ?suffixDot ?suffix scanner hr
  case nil =>
    intro position
    rw [tokens_start_nil]
    exact .endOfInput position
  case blank =>
    intro first rest position hfirst ih
    rw [tokens_start_blank hfirst, List.cons_append, tokens_start_blank hfirst, utf8Width_cons,
      ← Nat.add_assoc]
    exact ih
  case hash =>
    intro rest position ih
    rw [tokens_start_hash, List.cons_append, tokens_start_hash, utf8Width_cons, ← Nat.add_assoc]
    exact .token _ rfl ih
  case dot =>
    intro rest position ih
    rw [tokens_start_dot, List.cons_append, tokens_start_dot, utf8Width_cons, ← Nat.add_assoc]
    exact .token _ rfl (.token _ rfl ih)
  case star =>
    intro rest position ih
    rw [tokens_start_star, List.cons_append, tokens_start_star, utf8Width_cons, ← Nat.add_assoc]
    exact .token _ rfl ih
  case name =>
    intro first rest position hfirst hn ih
    rw [tokens_start_name hfirst hn, List.cons_append, tokens_start_name hfirst hn]
    exact ih
  case other =>
    intro first rest position hfirst hn
    rw [tokens_start_other hfirst hn, List.cons_append, tokens_start_other hfirst hn]
    exact .error ..
  case ident =>
    intro state next kind expected rest taken left position hs hsplit ih
    have hlonger : Ident.split? (rest ++ c :: more) = some (taken, left ++ c :: more) := by
      rw [split?_append_blank hc, hsplit]
      rfl
    rw [tokens_ident hs hsplit, tokens_ident hs hlonger, ← Ident.split?_append hsplit,
      utf8Width_append, ← Nat.add_assoc]
    exact .token _ hs.not_isTerminal ih
  case noIdent =>
    intro state next kind expected rest position hs hsplit
    have hlonger : Ident.split? (rest ++ c :: more) = none := by
      rw [split?_append_blank hc, hsplit]
      rfl
    rw [tokens_no_ident hs hsplit, tokens_no_ident hs hlonger]
    exact .error ..
  case suffixDot =>
    intro rest position ih
    rw [tokens_suffix_dot, List.cons_append, tokens_suffix_dot, utf8Width_cons, ← Nat.add_assoc]
    exact .token _ rfl ih
  case suffix =>
    intro rest position hdot ih
    rw [tokens_suffix hdot, tokens_suffix (head?_append_blank hc hdot)]
    exact ih

/-- The stream ends with its first terminal token, and this one decides what is behind it. -/
theorem Extends.exists_last {follow tokens longer : List Token} (h : Extends follow tokens longer) :
    ∃ front last, tokens = front ++ [last] ∧
      (last.kind = .endOfInput ∧ longer = front ++ follow ∨
        last.kind = .error ∧ longer = front ++ [last]) := by
  induction h with
  | endOfInput position => exact ⟨[], _, rfl, .inl ⟨rfl, rfl⟩⟩
  | error text position => exact ⟨[], _, rfl, .inr ⟨rfl, rfl⟩⟩
  | token token _ _ ih =>
    obtain ⟨front, last, rfl, ⟨hkind, rfl⟩ | ⟨hkind, rfl⟩⟩ := ih
    · exact ⟨token :: front, last, rfl, .inl ⟨hkind, rfl⟩⟩
    · exact ⟨token :: front, last, rfl, .inr ⟨hkind, rfl⟩⟩

theorem Extends.eq_of_endOfInput {follow tokens longer : List Token}
    (h : Extends follow tokens longer)
    (hl : tokens.getLast?.map (·.kind) = some .endOfInput) : longer = tokens.dropLast ++ follow := by
  obtain ⟨front, last, rfl, ⟨-, hall⟩ | ⟨herror, -⟩⟩ := h.exists_last
  · rw [hall, List.dropLast_concat]
  · rw [List.getLast?_concat, Option.map_some, herror] at hl
    cases hl

theorem Extends.eq_of_error {follow tokens longer : List Token} (h : Extends follow tokens longer)
    (hl : tokens.getLast?.map (·.kind) = some .error) : longer = tokens := by
  obtain ⟨front, last, rfl, ⟨hend, -⟩ | ⟨-, hall⟩⟩ := h.exists_last
  · rw [List.getLast?_concat, Option.map_some, hend] at hl
    cases hl
  · exact hall

/-- What follows is compiled with the terms so far, unless there was an error. -/
theorem Extends.outcome {follow tokens longer : List Token} (h : Extends follow tokens longer)
    (terms : List Term) :
    (longer.foldl Compilation.receive (.building terms)).outcome =
      let outcome := (tokens.foldl Compilation.receive (.building terms)).outcome
      if outcome.error = none then
        (follow.foldl Compilation.receive (.building outcome.chain.terms.reverse)).outcome
      else outcome := by
  induction h generalizing terms with
  | endOfInput position => simp [Compilation.receive, Compilation.outcome]
  | error text position => simp [Compilation.receive, Compilation.outcome]
  | token token ht _ ih =>
    obtain ⟨update, hupdate⟩ : ∃ update, Compilation.receive (.building terms) token =
        .building update := by
      obtain ⟨kind, text, position⟩ := token
      cases kind with
      | endOfInput | error => cases ht
      | id | wildcard | wildcardShorthand | elementName | className | idPrefix | classPrefix =>
        exact ⟨_, rfl⟩
    rw [List.foldl_cons, List.foldl_cons, hupdate]
    exact ih update

/-! ## Behind other terms -/

/-- The states in which the latest term may still get a class. -/
def isInTerm : State → Bool
  | .elementSuffix | .className => true
  | _ => false

theorem setClass_append (value : String) {terms : List Term} (h : terms ≠ [])
    (earlier : List Term) :
    Compilation.setClass value (terms ++ earlier) = Compilation.setClass value terms ++ earlier := by
  obtain ⟨last, terms, rfl⟩ := List.exists_cons_of_ne_nil h
  simp only [Compilation.setClass, List.cons_append]
  split <;> rfl

theorem withIdent_append {state next : State} {kind : TokenKind} {expected : Expected}
    (hs : ReadsIdent state kind expected next) {terms : List Term}
    (h : isInTerm state = true → terms ≠ []) (text : List Char) (earlier : List Term) :
    withIdent kind text (terms ++ earlier) = withIdent kind text terms ++ earlier ∧
      (isInTerm next = true → withIdent kind text terms ≠ []) := by
  cases hs with
  | idName => exact ⟨rfl, nofun⟩
  | elementName => exact ⟨rfl, fun _ => List.cons_ne_nil _ _⟩
  | className => exact ⟨setClass_append _ (h rfl) earlier, nofun⟩

/-- Earlier terms stay as they are, and a position further on shows in the error only. -/
theorem compileFrom_behind (isAlphanumeric : Char → Bool) (earlier : List Term) (offset : Nat)
    (scanner : Scanner) (hr : isResting scanner.state = true) :
    ∀ terms, (isInTerm scanner.state = true → terms ≠ []) →
      compileFrom isAlphanumeric (terms ++ earlier)
          ⟨scanner.rest, scanner.position + offset, scanner.state⟩ =
        (compileFrom isAlphanumeric terms scanner).behind earlier.reverse offset := by
  refine stream_induction isAlphanumeric
    (motive := fun scanner => ∀ terms, (isInTerm scanner.state = true → terms ≠ []) →
      compileFrom isAlphanumeric (terms ++ earlier)
          ⟨scanner.rest, scanner.position + offset, scanner.state⟩ =
        (compileFrom isAlphanumeric terms scanner).behind earlier.reverse offset)
    ?nil ?blank ?hash ?dot ?star ?name ?other ?ident ?noIdent ?suffixDot ?suffix scanner hr
  case nil =>
    intro position terms _
    rw [compileFrom_start_nil, compileFrom_start_nil, List.reverse_append]
    rfl
  case blank =>
    intro c rest position hc ih terms _
    rw [compileFrom_start_blank hc, compileFrom_start_blank hc, ← ih terms nofun,
      Nat.add_right_comm]
  case hash =>
    intro rest position ih terms _
    rw [compileFrom_start_hash, compileFrom_start_hash, ← ih terms nofun, Nat.add_right_comm]
  case dot =>
    intro rest position ih terms _
    rw [compileFrom_start_dot, compileFrom_start_dot, ← ih _ fun _ => List.cons_ne_nil _ _,
      Nat.add_right_comm, List.cons_append]
  case star =>
    intro rest position ih terms _
    rw [compileFrom_start_star, compileFrom_start_star, ← ih _ fun _ => List.cons_ne_nil _ _,
      Nat.add_right_comm, List.cons_append]
  case name =>
    intro c rest position hc hn ih terms _
    rw [compileFrom_start_name hc hn, compileFrom_start_name hc hn]
    exact ih terms nofun
  case other =>
    intro c rest position hc hn terms _
    rw [compileFrom_start_other hc hn, compileFrom_start_other hc hn, List.reverse_append]
    rfl
  case ident =>
    intro state next kind expected rest taken left position hs hsplit ih terms hterms
    obtain ⟨hident, hnext⟩ := withIdent_append hs hterms taken earlier
    rw [compileFrom_ident hs hsplit, compileFrom_ident hs hsplit, ← ih _ hnext, hident,
      Nat.add_right_comm]
  case noIdent =>
    intro state next kind expected rest position hs hsplit terms _
    rw [compileFrom_no_ident hs hsplit, compileFrom_no_ident hs hsplit, List.reverse_append]
    rfl
  case suffixDot =>
    intro rest position ih terms hterms
    rw [compileFrom_suffix_dot, compileFrom_suffix_dot, ← ih terms fun _ => hterms rfl,
      Nat.add_right_comm]
  case suffix =>
    intro rest position hdot ih terms _
    rw [compileFrom_suffix hdot, compileFrom_suffix hdot]
    exact ih terms nofun

end Scanner

/-! ## Whole selectors -/

/-- The tokens of a selector that begins at some position. -/
theorem tokens_shift_ofSelector (selector : String) (offset : Nat) :
    Scanner.tokens Unicode.isAlphanumeric ⟨selector.toList, offset, .start⟩ =
      (tokenize selector).map (Token.shift offset) := by
  have h := Scanner.tokens_shift offset (.ofSelector selector) Unicode.isAlphanumeric
  rwa [Scanner.shift, Scanner.ofSelector, Nat.zero_add] at h

theorem outcome_behind (selector : String) (terms : List Term) (offset : Nat) :
    (((tokenize selector).map (Token.shift offset)).foldl Compilation.receive
        (.building terms.reverse)).outcome =
      (compileSelector selector).behind terms offset := by
  have h := Scanner.compileFrom_behind Unicode.isAlphanumeric terms.reverse offset
    (.ofSelector selector) rfl [] nofun
  rw [Scanner.ofSelector, Nat.zero_add, List.nil_append, List.reverse_reverse,
    Scanner.compileFrom, tokens_shift_ofSelector] at h
  exact h

section

variable {blanks : String} (hb : ∀ c ∈ blanks.toList, c = ' ' ∨ c = '\t') (hne : blanks ≠ "")

include hb hne in
/-- Behind blanks the stream goes on with the tokens of what is there. -/
theorem extends_tokenize (before after : String) :
    Scanner.Extends
      ((tokenize after).map (Token.shift (before.utf8ByteSize + blanks.utf8ByteSize)))
      (tokenize before) (tokenize (before ++ blanks ++ after)) := by
  have hblank : ∀ c ∈ blanks.toList, Scanner.isBlank c = true := fun c hc =>
    isBlank_iff.mpr (hb c hc)
  obtain ⟨c, more, hcons⟩ := List.exists_cons_of_ne_nil (by simpa using hne : blanks.toList ≠ [])
  have hfollow : Scanner.tokens Unicode.isAlphanumeric
      ⟨c :: (more ++ after.toList), utf8Width before.toList, .start⟩ =
        (tokenize after).map (Token.shift (before.utf8ByteSize + blanks.utf8ByteSize)) := by
    rw [← List.cons_append, ← hcons, Scanner.tokens_start_blanks _ hblank, utf8Width_toList,
      utf8Width_toList, tokens_shift_ofSelector]
  have hall : (before ++ blanks ++ after).toList = before.toList ++ c :: (more ++ after.toList) := by
    rw [String.toList_append, String.toList_append, List.append_assoc, hcons, List.cons_append]
  have h := Scanner.extends_tokens Unicode.isAlphanumeric (hblank c (by simp [hcons]))
    (more ++ after.toList) (.ofSelector before) rfl
  rw [Scanner.ofSelector, Nat.zero_add, hfollow, ← hall] at h
  exact h

include hb hne in
/-- The chain goes on behind blanks if there is no error before them, and ends there if there is. -/
theorem compileSelector_append_blanks (before after : String) :
    compileSelector (before ++ blanks ++ after) =
      if (compileSelector before).error = none then
        (compileSelector after).behind (compile before).terms
          (before.utf8ByteSize + blanks.utf8ByteSize)
      else compileSelector before := by
  rw [← outcome_behind]
  exact (extends_tokenize hb hne before after).outcome []

include hb hne in
theorem compile_blanks_append (selector : String) :
    compile (blanks ++ selector) = compile selector := by
  have hempty : compileSelector "" = ⟨⟨[]⟩, none⟩ := rfl
  have h := compileSelector_append_blanks hb hne "" selector
  rw [String.empty_append, if_pos (by rw [hempty])] at h
  rw [compile, h]
  rfl

include hb hne in
theorem compile_append_blanks (selector : String) :
    compile (selector ++ blanks) = compile selector := by
  have h := compileSelector_append_blanks hb hne selector ""
  rw [String.append_empty] at h
  rw [compile, h]
  split
  · exact congrArg Chain.mk (List.append_nil _)
  · rfl

include hb hne in
/-- **Blanks between selectors.** The tokens of two selectors with blanks between them are those of
the first one up to its end, and then those of the second one, further on in the text. An error in
the first one ends them. So the chain of a valid selector goes on with that of what follows, and a
chain depends neither on how many blanks stand in one place nor on blanks at either end. -/
theorem tokenize_append_blanks (before after : String) :
    ((tokenize before).getLast?.map (·.kind) = some .endOfInput →
      tokenize (before ++ blanks ++ after) = (tokenize before).dropLast ++
        (tokenize after).map (Token.shift (before.utf8ByteSize + blanks.utf8ByteSize))) ∧
    ((tokenize before).getLast?.map (·.kind) = some .error →
      tokenize (before ++ blanks ++ after) = tokenize before) ∧
    (∀ chain, compileStrict before = .ok chain →
      compile (before ++ blanks ++ after) = ⟨chain.terms ++ (compile after).terms⟩ ∧
      (compileSelector (before ++ blanks ++ after)).error = (compileSelector after).error.map
        (LexError.shift (before.utf8ByteSize + blanks.utf8ByteSize))) ∧
    (∀ others : String, (∀ c ∈ others.toList, c = ' ' ∨ c = '\t') → others ≠ "" →
      compile (before ++ others ++ after) = compile (before ++ blanks ++ after)) ∧
    compile (blanks ++ before) = compile before ∧ compile (before ++ blanks) = compile before := by
  have hext := extends_tokenize hb hne before after
  refine ⟨hext.eq_of_endOfInput, hext.eq_of_error, fun chain h => ?_, fun others hothers hne' => ?_,
    compile_blanks_append hb hne before, compile_append_blanks hb hne before⟩
  · obtain ⟨haccepts, rfl⟩ := compileStrictWith_eq_ok_iff.mp h
    have herror : (compileSelector before).error = none := haccepts
    rw [compile, compileSelector_append_blanks hb hne, if_pos herror]
    exact ⟨rfl, rfl⟩
  · unfold compile
    rw [compileSelector_append_blanks hb hne, compileSelector_append_blanks hothers hne']
    split <;> rfl

end

/-- A blank cuts an escape short: without it, the digits that follow would belong to the escape. An
error in front of a blank is the last token. -/
theorem tokenize_append_blanks_cutEscape :
    (∀ c ∈ "\t ".toList, c = ' ' ∨ c = '\t') ∧ "\t " ≠ "" ∧
      (tokenize "p.\\3").getLast?.map (·.kind) = some .endOfInput ∧
      tokenize ("p.\\3" ++ "\t " ++ "41") = [⟨.elementName, "p", 0⟩, ⟨.classPrefix, ".", 1⟩,
        ⟨.className, "\\3", 2⟩, ⟨.error, "expected element name", 6⟩] ∧
      (tokenize "p.\u00fc").getLast?.map (·.kind) = some .error ∧
      tokenize ("p.\u00fc" ++ "\t " ++ "41") =
        [⟨.elementName, "p", 0⟩, ⟨.classPrefix, ".", 1⟩, ⟨.error, "expected class name", 2⟩] ∧
      compile ("p.\\3" ++ "\t " ++ ".b") =
        ⟨[(Term.ofName "p").withClass "\\3", Term.wildcard.withClass "b"]⟩ := by
  have hb : ∀ c ∈ "\t ".toList, c = ' ' ∨ c = '\t' := by simp
  have hne : "\t " ≠ "" := by decide
  have hend : (tokenize "p.\\3").getLast?.map (·.kind) = some .endOfInput := rfl
  have herror : (tokenize "p.\u00fc").getLast?.map (·.kind) = some .error := rfl
  obtain ⟨hshift, -, -, -⟩ := tokenize_append_blanks hb hne "p.\\3" "41"
  obtain ⟨-, hstop, -, -⟩ := tokenize_append_blanks hb hne "p.\u00fc" "41"
  obtain ⟨-, -, hchain, -⟩ := tokenize_append_blanks hb hne "p.\\3" ".b"
  exact ⟨hb, hne, hend, hshift hend, herror, hstop herror, (hchain _ rfl).1⟩

end DomSelect
