import DomSelect.Proofs.Selector.Spelling

/-!
# Compiling any tokens

A compilation can be given any tokens in any order, not those of a scanner alone. It only adds terms:
a term that another one follows is final, and the latest term can get a class, or another class, if it
is no id term (`Compilation.Continues`). An id term never has a name or a class
(`Compilation.IdsAlone`). Both are kept by each token (`Compilation.receive_of_not_isTerminal`) and so
by all of them (`Compilation.foldl_receive`). What the outcome depends on besides is said by
`compileTokens_append_only`.
-/

namespace DomSelect

variable {token : Token} {tokens : List Token} {term : Term} {terms : List Term}

/-! ## Terms -/

/-- What a term can become while it is the latest one. -/
structure Term.Reclassed (before after : Term) : Prop where
  id : after.id = before.id
  elementName : after.elementName = before.elementName
  eq_of_isIdTerm : before.isIdTerm = true → after = before

theorem Term.Reclassed.refl (term : Term) : term.Reclassed term := ⟨rfl, rfl, fun _ => rfl⟩

theorem Term.Reclassed.trans {first second third : Term} (h : first.Reclassed second)
    (h' : second.Reclassed third) : first.Reclassed third where
  id := h'.id.trans h.id
  elementName := h'.elementName.trans h.elementName
  eq_of_isIdTerm hid := by
    obtain rfl := h.eq_of_isIdTerm hid
    exact h'.eq_of_isIdTerm hid

theorem Term.reclassed_withClass (hid : term.isIdTerm = false) (value : String) :
    term.Reclassed (term.withClass value) where
  id := rfl
  elementName := rfl
  eq_of_isIdTerm h := by
    rw [hid] at h
    cases h

namespace Compilation

/-! ## What tokens do to terms -/

/-- To the terms `before` others have been added; the latest of them has at most got a class. -/
def Continues (before after : List Term) : Prop :=
  ∀ last earlier, before = last :: earlier →
    ∃ added settled, after = added ++ settled :: earlier ∧ last.Reclassed settled

/-- No id term has another criterion. -/
def IdsAlone (terms : List Term) : Prop :=
  ∀ term ∈ terms, term.isIdTerm = true → term.elementName = none ∧ term.className = none

theorem Continues.refl (terms : List Term) : Continues terms terms := by
  rintro last earlier rfl
  exact ⟨[], last, rfl, .refl last⟩

theorem continues_cons (term : Term) (terms : List Term) : Continues terms (term :: terms) := by
  rintro last earlier rfl
  exact ⟨[term], last, rfl, .refl last⟩

/-- A class goes to a new wildcard, or to the latest term, which is no id term then. -/
theorem setClass_cases (value : String) (terms : List Term) :
    setClass value terms = Term.wildcard.withClass value :: terms ∨
      ∃ last earlier, terms = last :: earlier ∧ last.isIdTerm = false ∧
        setClass value terms = last.withClass value :: earlier := by
  cases terms with
  | nil => exact .inl rfl
  | cons last earlier =>
    by_cases hid : last.isIdTerm = true
    · exact .inl (if_pos hid)
    · exact .inr ⟨last, earlier, rfl, Bool.eq_false_iff.mpr hid, if_neg hid⟩

theorem continues_setClass (value : String) (terms : List Term) :
    Continues terms (setClass value terms) := by
  rcases setClass_cases value terms with hset | ⟨last, earlier, rfl, hid, hset⟩
  · rw [hset]
    exact continues_cons _ terms
  · rintro _ _ ⟨⟩
    exact ⟨[], _, hset, Term.reclassed_withClass hid value⟩

theorem Continues.trans {first second third : List Term} (h : Continues first second)
    (h' : Continues second third) : Continues first third := by
  intro last earlier he
  obtain ⟨added, settled, hsecond, hlast⟩ := h last earlier he
  cases added with
  | nil =>
    -- the term is still the latest one, so it may change again
    obtain ⟨more, final, hthird, hfinal⟩ := h' settled earlier hsecond
    exact ⟨more, final, hthird, hlast.trans hfinal⟩
  | cons latest between =>
    obtain ⟨more, final, hthird, -⟩ := h' latest (between ++ settled :: earlier) hsecond
    exact ⟨more ++ final :: between, settled, by simp [hthird], hlast⟩

theorem IdsAlone.cons (h : IdsAlone terms)
    (hterm : term.isIdTerm = true → term.elementName = none ∧ term.className = none) :
    IdsAlone (term :: terms) :=
  List.forall_mem_cons.mpr ⟨hterm, h⟩

theorem IdsAlone.setClass (h : IdsAlone terms) (value : String) :
    IdsAlone (setClass value terms) := by
  rcases setClass_cases value terms with hset | ⟨last, earlier, rfl, hid, hset⟩
  · rw [hset]
    exact h.cons nofun
  · rw [hset]
    apply IdsAlone.cons (List.forall_mem_cons.mp h).2
    intro hclass
    cases hid.symm.trans hclass

/-- One token that does not end the stream. -/
theorem receive_of_not_isTerminal (ht : token.isTerminal = false) (terms : List Term) :
    ∃ after, receive (building terms) token = building after ∧ Continues terms after ∧
      (IdsAlone terms → IdsAlone after) := by
  obtain ⟨kind, text, position⟩ := token
  cases kind with
  | id =>
    refine ⟨_, rfl, continues_cons _ terms, fun h => h.cons fun _ => ?_⟩
    exact ⟨rfl, rfl⟩
  | wildcard | wildcardShorthand | elementName =>
    exact ⟨_, rfl, continues_cons _ terms, fun h => h.cons nofun⟩
  | className => exact ⟨_, rfl, continues_setClass text terms, fun h => h.setClass text⟩
  | idPrefix | classPrefix => exact ⟨terms, rfl, .refl terms, id⟩
  | endOfInput | error => cases ht

/-- Any tokens add terms; as long as none of them ends the stream, they do nothing else. -/
theorem foldl_receive (tokens : List Token) (terms : List Term) :
    ∃ after, Continues terms after ∧ (IdsAlone terms → IdsAlone after) ∧
      (tokens.foldl receive (building terms)).outcome.chain.terms = after.reverse ∧
      ((∀ token ∈ tokens, token.isTerminal = false) →
        tokens.foldl receive (building terms) = building after) := by
  induction tokens generalizing terms with
  | nil => exact ⟨terms, .refl terms, id, rfl, fun _ => rfl⟩
  | cons token tokens ih =>
    rw [List.foldl_cons]
    by_cases ht : token.isTerminal = true
    · obtain ⟨error, hend⟩ := exists_receive_of_isTerminal ht terms
      refine ⟨terms, .refl terms, id, ?_, fun hall => ?_⟩
      · rw [hend, foldl_receive_finished]
        rfl
      · rw [hall token List.mem_cons_self] at ht
        cases ht
    · obtain ⟨middle, hstep, hmiddle, halone⟩ :=
        receive_of_not_isTerminal (Bool.eq_false_iff.mpr ht) terms
      obtain ⟨after, hafter, halone', hchain, hbuilding⟩ := ih middle
      rw [hstep]
      refine ⟨after, hmiddle.trans hafter, fun h => halone' (halone h), hchain, fun hall => ?_⟩
      exact hbuilding fun other ho => hall other (List.mem_cons_of_mem _ ho)

/-! ## Tokens that do not matter -/

/-- The marks `#` and `.` carry nothing. -/
theorem receive_of_mark (hk : token.kind = .idPrefix ∨ token.kind = .classPrefix)
    (compilation : Compilation) : receive compilation token = compilation := by
  cases compilation with
  | building terms => exact receive_mark hk terms
  | finished outcome => rfl

theorem exists_receive_eq_finished (ht : token.isTerminal = true) (compilation : Compilation) :
    ∃ outcome, receive compilation token = finished outcome := by
  cases compilation with
  | building terms =>
    obtain ⟨error, hend⟩ := exists_receive_of_isTerminal ht terms
    exact ⟨_, hend⟩
  | finished outcome => exact ⟨outcome, rfl⟩

end Compilation

open Compilation

/-- Whether a token is one of the marks `#` and `.`. -/
def Token.isMark (token : Token) : Bool := token.kind == .idPrefix || token.kind == .classPrefix

theorem compileTokens_filter_marks (tokens : List Token) :
    compileTokens (tokens.filter fun token => !token.isMark) = compileTokens tokens := by
  unfold compileTokens
  rw [List.foldl_filter]
  congr 2
  funext compilation token
  by_cases hm : token.isMark = true
  · have hk : token.kind = .idPrefix ∨ token.kind = .classPrefix := by
      simpa [Token.isMark] using hm
    rw [receive_of_mark hk]
    simp
  · simp [hm]

/-- What follows a token that ends the stream does not matter. -/
theorem compileTokens_append_cons (ht : token.isTerminal = true) (before after other : List Token) :
    compileTokens (before ++ token :: after) = compileTokens (before ++ token :: other) := by
  unfold compileTokens
  rw [List.foldl_append, List.foldl_append, List.foldl_cons, List.foldl_cons]
  obtain ⟨outcome, hend⟩ := exists_receive_eq_finished ht (before.foldl receive start)
  rw [hend, foldl_receive_finished, foldl_receive_finished]

/-- The first token that ends the stream decides about the error. -/
theorem error_foldl_receive_eq (tokens : List Token) (terms : List Term) :
    (tokens.foldl receive (building terms)).outcome.error =
      (tokens.find? Token.isTerminal).bind fun token =>
        if token.kind = .error then some ⟨token.position, token.text⟩ else none := by
  induction tokens generalizing terms with
  | nil => rfl
  | cons token tokens ih =>
    rw [List.foldl_cons]
    by_cases ht : token.isTerminal = true
    · rw [List.find?_cons_of_pos ht, Option.bind_some]
      rcases isTerminal_iff.mp ht with hk | hk
      · have hend : receive (building terms) token = finished ⟨⟨terms.reverse⟩, none⟩ := by
          simp only [receive, hk]
        rw [hend, foldl_receive_finished, if_neg (by simp [hk])]
        rfl
      · have hend : receive (building terms) token =
            finished ⟨⟨terms.reverse⟩, some ⟨token.position, token.text⟩⟩ := by
          simp only [receive, hk]
        rw [hend, foldl_receive_finished, if_pos hk]
        rfl
    · rw [List.find?_cons_of_neg ht]
      obtain ⟨middle, hstep, -⟩ := receive_of_not_isTerminal (Bool.eq_false_iff.mpr ht) terms
      rw [hstep]
      exact ih middle

/-- **Compiling only appends.** Whatever the tokens are: an id term has no other criterion. Marks do
not matter, nor does what follows a token that ends the stream. There is an error exactly if the first
such token is an error token, and it has its position and text. Where the tokens are cut in front of
all tokens that end the stream, the terms of the first part come first in the whole chain; the last of
them may have another class there, unless it is an id term. -/
theorem compileTokens_append_only (tokens : List Token) :
    (∀ term ∈ (compileTokens tokens).chain.terms, term.isIdTerm = true →
      term.elementName = none ∧ term.className = none) ∧
    compileTokens (tokens.filter fun token => !token.isMark) = compileTokens tokens ∧
    (∀ before last after other, tokens = before ++ last :: after → last.isTerminal = true →
      compileTokens (before ++ last :: other) = compileTokens tokens) ∧
    (∀ error, (compileTokens tokens).error = some error ↔ ∃ token,
      tokens.find? Token.isTerminal = some token ∧ token.kind = .error ∧
        error = ⟨token.position, token.text⟩) ∧
    ∀ front back, tokens = front ++ back → (∀ token ∈ front, token.isTerminal = false) →
      ∀ earlier last, (compileTokens front).chain.terms = earlier ++ [last] →
        ∃ settled later, (compileTokens tokens).chain.terms = earlier ++ settled :: later ∧
          last.Reclassed settled := by
  refine ⟨?_, compileTokens_filter_marks tokens, ?_, fun error => ?_, ?_⟩
  · obtain ⟨after, -, halone, hchain, -⟩ := foldl_receive tokens []
    intro term hterm
    rw [compileTokens, start, hchain, List.mem_reverse] at hterm
    exact halone (List.forall_mem_nil _) term hterm
  · rintro before last after other rfl ht
    exact compileTokens_append_cons ht before other after
  · rw [compileTokens, start, error_foldl_receive_eq, Option.bind_eq_some_iff]
    refine exists_congr fun token => and_congr_right fun _ => ?_
    by_cases hk : token.kind = .error
    · simp [hk, eq_comm]
    · simp [hk]
  · rintro front back rfl hfront earlier last hlast
    obtain ⟨middle, -, -, -, hbuilding⟩ := foldl_receive front []
    obtain ⟨after, hcontinues, -, hchain, -⟩ := foldl_receive back middle
    have hmiddle : middle = last :: earlier.reverse := by
      rw [compileTokens, start, hbuilding hfront] at hlast
      have hreverse := congrArg List.reverse hlast
      simpa [outcome] using hreverse
    obtain ⟨added, settled, rfl, hsettled⟩ := hcontinues last _ hmiddle
    refine ⟨settled, added.reverse, ?_, hsettled⟩
    rw [compileTokens, start, List.foldl_append, hbuilding hfront, hchain]
    simp

/-- A class in front of every term, and one behind an id that is empty. -/
def classesAlone : List Token := [⟨.className, "a", 5⟩, ⟨.id, "", 3⟩, ⟨.className, "b", 9⟩]

/-- Another class, a class behind an id, and a name behind the error. -/
def classesAndError : List Token :=
  [⟨.classPrefix, ".", 0⟩, ⟨.className, "c", 1⟩, ⟨.id, "x", 2⟩, ⟨.className, "d", 2⟩,
    ⟨.error, "expected id", 7⟩, ⟨.elementName, "p", 8⟩]

/-- The term with the empty id gets another class, the id term gets none, and the name is ignored. -/
theorem compileTokens_append_only_classes :
    (∀ token ∈ classesAlone, token.isTerminal = false) ∧
      (compileTokens classesAlone).chain.terms =
        [Term.wildcard.withClass "a"] ++ [⟨some "", none, some "b"⟩] ∧
      (∃ settled later, (compileTokens (classesAlone ++ classesAndError)).chain.terms =
          [Term.wildcard.withClass "a"] ++ settled :: later ∧
        Term.Reclassed ⟨some "", none, some "b"⟩ settled) ∧
      compileTokens (classesAlone ++ classesAndError) =
        ⟨⟨[Term.wildcard.withClass "a", ⟨some "", none, some "c"⟩, .byId "x",
          Term.wildcard.withClass "d"]⟩, some ⟨7, "expected id"⟩⟩ := by
  have hfront : ∀ token ∈ classesAlone, token.isTerminal = false := by decide
  have hterms : (compileTokens classesAlone).chain.terms =
      [Term.wildcard.withClass "a"] ++ [⟨some "", none, some "b"⟩] := by decide +kernel
  obtain ⟨-, -, -, -, happends⟩ := compileTokens_append_only (classesAlone ++ classesAndError)
  exact ⟨hfront, hterms, happends _ _ rfl hfront _ _ hterms, by decide +kernel⟩

end DomSelect
