import DomSelect.Proofs.Selector.Compiling
import DomSelect.Proofs.Selector.Tiling

/-!
# Terms and the tokens that spell them

The tokens of a selector are groups, one for each term of the chain, and then a terminal token that
may break off a group (`Spells`). A compilation makes each group the term that it spells
(`Spells.chain_outcome`), so what the tokens say can be read off the terms again, in order and
nothing else (`compile_spelling`).

A class name only occurs in a group whose first token has begun a term, which is the latest one then
and has no class yet (`Spells.exists_of_className`).
-/

namespace DomSelect

variable {opener token : Token} {group tokens before after : List Token} {term : Term}
  {terms earlier : List Term}

/-! ## Definitions -/

/-- What a token puts into a chain, by its kind and its text. An implied wildcard counts as a
written one; marks and terminal tokens put in nothing. -/
def Token.content? (token : Token) : Option (TokenKind × String) :=
  match token.kind with
  | .id | .elementName | .wildcard | .className => some (token.kind, token.text)
  | .wildcardShorthand => some (.wildcard, Term.anyName)
  | .idPrefix | .classPrefix | .endOfInput | .error => none

/-- A term token by token: its id, or else its tag and then its class if it has one. -/
def Term.spelling (term : Term) : List (TokenKind × String) :=
  match term.id with
  | some value => [(.id, value)]
  | none =>
    (term.elementName.toList.map fun name =>
      (if name = anyName then .wildcard else .elementName, name)) ++
        term.className.toList.map fun value => (.className, value)

/-- The token begins a term with a tag, which may still get a class. -/
inductive Opens : Token → Term → Prop
  | name {text : String} {position : Nat} (hn : text ≠ Term.anyName) :
      Opens ⟨.elementName, text, position⟩ (.ofName text)
  | any {position : Nat} : Opens ⟨.wildcard, Term.anyName, position⟩ .wildcard
  | implied {text : String} {position : Nat} : Opens ⟨.wildcardShorthand, text, position⟩ .wildcard

/-- The tokens of a whole term. -/
inductive Group : List Token → Term → Prop
  | id {mark name : Token} (hm : mark.kind = .idPrefix) (hn : name.kind = .id) :
      Group [mark, name] (.byId name.text)
  | tag {opener : Token} {term : Term} (ho : Opens opener term) : Group [opener] term
  | classed {opener mark name : Token} {term : Term} (ho : Opens opener term)
      (hm : mark.kind = .classPrefix) (hn : name.kind = .className) :
      Group [opener, mark, name] (term.withClass name.text)

/-- The tokens are those of the terms, group by group, up to a terminal token. -/
inductive Spells : List Token → List Term → Prop
  /-- The stream ends between two groups. -/
  | stop {last : Token} (hl : last.isTerminal = true) : Spells [last] []
  /-- There is no identifier behind a `#`. -/
  | idMissing {mark last : Token} (hm : mark.kind = .idPrefix) (hl : last.isTerminal = true) :
      Spells [mark, last] []
  /-- There is no identifier behind a `.`, where a term has been begun. -/
  | classMissing {opener mark last : Token} {term : Term} (ho : Opens opener term)
      (hm : mark.kind = .classPrefix) (hl : last.isTerminal = true) :
      Spells [opener, mark, last] [term]
  | group {group tokens : List Token} {term : Term} {terms : List Term} (hg : Group group term)
      (h : Spells tokens terms) : Spells (group ++ tokens) (term :: terms)

/-! ## One token -/

namespace Compilation

theorem receive_id (hk : token.kind = .id) (terms : List Term) :
    receive (building terms) token = building (.byId token.text :: terms) := by
  simp only [receive, hk]

theorem receive_mark (hk : token.kind = .idPrefix ∨ token.kind = .classPrefix)
    (terms : List Term) : receive (building terms) token = building terms := by
  rcases hk with hk | hk <;> simp only [receive, hk]

theorem receive_className (hk : token.kind = .className) (terms : List Term) :
    receive (building terms) token = building (setClass token.text terms) := by
  simp only [receive, hk]

/-- A terminal token leaves the terms as they are. -/
theorem exists_receive_of_isTerminal (ht : token.isTerminal = true) (terms : List Term) :
    ∃ error, receive (building terms) token = finished ⟨⟨terms.reverse⟩, error⟩ := by
  rcases isTerminal_iff.mp ht with hk | hk
  · exact ⟨none, by simp only [receive, hk]⟩
  · exact ⟨some ⟨token.position, token.text⟩, by simp only [receive, hk]⟩

end Compilation

namespace Token

theorem content?_of_isTerminal (ht : token.isTerminal = true) : token.content? = none := by
  rcases isTerminal_iff.mp ht with hk | hk <;> simp only [content?, hk]

theorem content?_mark (hk : token.kind = .idPrefix ∨ token.kind = .classPrefix) :
    token.content? = none := by
  rcases hk with hk | hk <;> simp only [content?, hk]

theorem content?_id (hk : token.kind = .id) : token.content? = some (.id, token.text) := by
  simp only [content?, hk]

theorem content?_className (hk : token.kind = .className) :
    token.content? = some (.className, token.text) := by
  simp only [content?, hk]

end Token

theorem not_className_of_isTerminal (ht : token.isTerminal = true) : token.kind ≠ .className := by
  rcases isTerminal_iff.mp ht with hk | hk <;> rw [hk] <;> exact nofun

namespace Opens

theorem not_className (h : Opens opener term) : opener.kind ≠ .className := by
  cases h <;> exact nofun

theorem not_isIdTerm (h : Opens opener term) : term.isIdTerm = false := by
  cases h <;> rfl

theorem className_eq_none (h : Opens opener term) : term.className = none := by
  cases h <;> rfl

theorem receive (h : Opens opener term) (terms : List Term) :
    Compilation.receive (.building terms) opener = .building (term :: terms) := by
  cases h <;> rfl

/-- The term gets the class, whatever stands before it. -/
theorem setClass (h : Opens opener term) (value : String) (terms : List Term) :
    Compilation.setClass value (term :: terms) = term.withClass value :: terms := by
  rw [Compilation.setClass, h.not_isIdTerm]
  rfl

/-- The term is spelled by the token, and by a class that is added to it. -/
theorem exists_content? (h : Opens opener term) :
    ∃ content, opener.content? = some content ∧ term.spelling = [content] ∧
      ∀ value, (term.withClass value).spelling = [content, (.className, value)] := by
  cases h with
  | @name text _ hn =>
    refine ⟨(.elementName, text), rfl, ?_, fun value => ?_⟩ <;>
      simp [Term.spelling, Term.ofName, Term.withClass, hn]
  | any | implied => exact ⟨(.wildcard, Term.anyName), rfl, rfl, fun _ => rfl⟩

end Opens

/-! ## One group -/

namespace Group

theorem foldl_receive (h : Group group term) (earlier : List Term) :
    group.foldl Compilation.receive (.building earlier) = .building (term :: earlier) := by
  cases h with
  | id hm hn =>
    rw [List.foldl_cons, List.foldl_cons, Compilation.receive_mark (.inl hm),
      Compilation.receive_id hn]
    rfl
  | tag ho => exact ho.receive earlier
  | classed ho hm hn =>
    rw [List.foldl_cons, List.foldl_cons, List.foldl_cons, ho.receive,
      Compilation.receive_mark (.inr hm), Compilation.receive_className hn, ho.setClass]
    rfl

theorem spelling_eq (h : Group group term) : term.spelling = group.filterMap Token.content? := by
  cases h with
  | id hm hn =>
    rw [List.filterMap_cons_none (Token.content?_mark (.inl hm)),
      List.filterMap_cons_some (Token.content?_id hn)]
    rfl
  | tag ho =>
    obtain ⟨content, hopener, hterm, -⟩ := ho.exists_content?
    rw [List.filterMap_cons_some hopener, hterm]
    rfl
  | classed ho hm hn =>
    obtain ⟨content, hopener, -, hclass⟩ := ho.exists_content?
    rw [List.filterMap_cons_some hopener, List.filterMap_cons_none (Token.content?_mark (.inr hm)),
      List.filterMap_cons_some (Token.content?_className hn), hclass]
    rfl

/-- A class name is the third token of its group. -/
theorem exists_of_className (h : Group group term) (hk : token.kind = .className)
    (hsplit : group = before ++ token :: after) :
    ∃ opener mark begun, before = [opener, mark] ∧ Opens opener begun ∧
      mark.kind = .classPrefix := by
  have hmem : token ∈ group := by simp [hsplit]
  cases h with
  | id hm hn =>
    simp only [List.mem_cons, List.not_mem_nil, or_false] at hmem
    rcases hmem with rfl | rfl
    · rw [hm] at hk
      cases hk
    · rw [hn] at hk
      cases hk
  | tag ho =>
    rw [List.mem_singleton.mp hmem] at hk
    exact absurd hk ho.not_className
  | @classed opener mark _ begun ho hm hn =>
    match before, hsplit with
    | [], hsplit =>
      rw [← (List.cons.inj hsplit).1] at hk
      exact absurd hk ho.not_className
    | [_], hsplit =>
      rw [← (List.cons.inj (List.cons.inj hsplit).2).1, hm] at hk
      cases hk
    | [_, _], hsplit =>
      simp only [List.cons_append, List.nil_append, List.cons.injEq] at hsplit
      obtain ⟨rfl, rfl, -⟩ := hsplit
      exact ⟨opener, mark, begun, rfl, ho, hm⟩
    | _ :: _ :: _ :: _, hsplit => simp at hsplit

end Group

/-! ## Whole streams -/

namespace Spells

/-- A compilation adds the terms that the tokens spell. -/
theorem chain_outcome (h : Spells tokens terms) (earlier : List Term) :
    (tokens.foldl Compilation.receive (.building earlier)).outcome.chain =
      ⟨earlier.reverse ++ terms⟩ := by
  induction h generalizing earlier with
  | stop hl =>
    obtain ⟨error, hlast⟩ := Compilation.exists_receive_of_isTerminal hl earlier
    rw [List.foldl_cons, hlast, List.append_nil]
    rfl
  | idMissing hm hl =>
    obtain ⟨error, hlast⟩ := Compilation.exists_receive_of_isTerminal hl earlier
    rw [List.foldl_cons, List.foldl_cons, Compilation.receive_mark (.inl hm), hlast,
      List.append_nil]
    rfl
  | @classMissing _ _ _ term ho hm hl =>
    obtain ⟨error, hlast⟩ := Compilation.exists_receive_of_isTerminal hl (term :: earlier)
    rw [List.foldl_cons, List.foldl_cons, List.foldl_cons, ho.receive,
      Compilation.receive_mark (.inr hm), hlast, List.reverse_cons]
    rfl
  | group hg _ ih =>
    rw [List.foldl_append, hg.foldl_receive, ih, List.reverse_cons, List.append_assoc]
    rfl

/-- The terms hold what the tokens say. -/
theorem flatMap_spelling (h : Spells tokens terms) :
    terms.flatMap Term.spelling = tokens.filterMap Token.content? := by
  induction h with
  | stop hl =>
    rw [List.filterMap_cons_none (Token.content?_of_isTerminal hl)]
    rfl
  | idMissing hm hl =>
    rw [List.filterMap_cons_none (Token.content?_mark (.inl hm)),
      List.filterMap_cons_none (Token.content?_of_isTerminal hl)]
    rfl
  | classMissing ho hm hl =>
    obtain ⟨content, hopener, hterm, -⟩ := ho.exists_content?
    rw [List.filterMap_cons_some hopener, List.filterMap_cons_none (Token.content?_mark (.inr hm)),
      List.filterMap_cons_none (Token.content?_of_isTerminal hl), List.flatMap_cons, hterm]
    rfl
  | group hg _ ih => rw [List.filterMap_append, List.flatMap_cons, hg.spelling_eq, ih]

/-- A class name stands behind a mark and the token that begins its term. -/
theorem exists_of_className (h : Spells tokens terms) (hk : token.kind = .className)
    (hsplit : tokens = before ++ token :: after) (earlier : List Term) :
    ∃ front opener mark term others, before = front ++ [opener, mark] ∧ Opens opener term ∧
      mark.kind = .classPrefix ∧
      front.foldl Compilation.receive (.building earlier) = .building others := by
  have hno : ∀ {others before : List Token}, (∀ other ∈ others, other.kind ≠ .className) →
      others ≠ before ++ token :: after := by
    intro others before hall he
    exact hall token (by simp [he]) hk
  induction h generalizing before earlier with
  | stop hl => exact absurd hsplit (hno (by simp [not_className_of_isTerminal hl]))
  | idMissing hm hl => exact absurd hsplit (hno (by simp [hm, not_className_of_isTerminal hl]))
  | classMissing ho hm hl =>
    exact absurd hsplit (hno (by simp [ho.not_className, hm, not_className_of_isTerminal hl]))
  | @group group tokens begun _ hg _ ih =>
    -- the class belongs to this group or to a later one
    obtain ⟨tail, rfl, hrest⟩ | ⟨rest, hgroup⟩ :
        (∃ tail, before = group ++ tail ∧ tokens = tail ++ token :: after) ∨
          ∃ rest, group = before ++ token :: rest := by
      rcases List.append_eq_append_iff.mp hsplit with htail | ⟨rest, hgroup, hrest⟩
      · exact .inl htail
      · cases rest with
        | nil => exact .inl ⟨[], by simpa using hgroup.symm, by simpa using hrest.symm⟩
        | cons _ rest =>
          obtain ⟨rfl, -⟩ := List.cons.inj hrest
          exact .inr ⟨rest, hgroup⟩
    · obtain ⟨front, opener, mark, term, others, rfl, ho, hm, hfront⟩ := ih hrest (begun :: earlier)
      refine ⟨group ++ front, opener, mark, term, others, (List.append_assoc ..).symm, ho, hm, ?_⟩
      rw [List.foldl_append, hg.foldl_receive, hfront]
    · obtain ⟨opener, mark, term, rfl, ho, hm⟩ := hg.exists_of_className hk hgroup
      exact ⟨[], opener, mark, term, earlier, rfl, ho, hm, rfl⟩

end Spells

/-! ## The stream of a scanner -/

namespace Scanner

/-- The tokens of a group that have been emitted when a state is reached. -/
inductive Begun : State → List Token → Prop
  | start : Begun .start []
  | elementName : Begun .elementName []
  | idName {mark : Token} (hm : mark.kind = .idPrefix) : Begun .idName [mark]
  | elementSuffix {opener : Token} {term : Term} (ho : Opens opener term) :
      Begun .elementSuffix [opener]
  | className {opener mark : Token} {term : Term} (ho : Opens opener term)
      (hm : mark.kind = .classPrefix) : Begun .className [opener, mark]

/-- No identifier reads `*`. -/
theorem ofList_ne_anyName {taken : List Char} (h : Ident.Derives taken) :
    String.ofList taken ≠ Term.anyName := by
  intro he
  have hstar : taken = ['*'] := by
    rw [← String.toList_ofList (l := taken), he]
    rfl
  have := h.pieces.isPart_of_mem '*' (by simp [hstar])
  exact absurd this (by decide)

/-- What is left in a scanner completes the group that has been begun. -/
theorem spells_tokens (isAlphanumeric : Char → Bool) (scanner : Scanner)
    (hr : isResting scanner.state = true) :
    ∀ begun, Begun scanner.state begun →
      ∃ terms, Spells (begun ++ scanner.tokens isAlphanumeric) terms := by
  refine stream_induction isAlphanumeric
    (motive := fun scanner => ∀ begun, Begun scanner.state begun →
      ∃ terms, Spells (begun ++ scanner.tokens isAlphanumeric) terms)
    ?nil ?blank ?hash ?dot ?star ?name ?other ?ident ?noIdent ?suffixDot ?suffix scanner hr
  case nil =>
    rintro position begun ⟨⟩
    rw [tokens_start_nil]
    exact ⟨_, .stop rfl⟩
  case blank =>
    intro c rest position hc ih begun hb
    rw [tokens_start_blank hc]
    exact ih begun hb
  case hash =>
    rintro rest position ih begun ⟨⟩
    rw [tokens_start_hash]
    exact ih _ (.idName rfl)
  case dot =>
    rintro rest position ih begun ⟨⟩
    rw [tokens_start_dot]
    exact ih _ (.className .implied rfl)
  case star =>
    rintro rest position ih begun ⟨⟩
    rw [tokens_start_star]
    exact ih _ (.elementSuffix .any)
  case name =>
    rintro c rest position hc hn ih begun ⟨⟩
    rw [tokens_start_name hc hn]
    exact ih _ .elementName
  case other =>
    rintro c rest position hc hn begun ⟨⟩
    rw [tokens_start_other hc hn]
    exact ⟨_, .stop rfl⟩
  case ident =>
    intro state next kind expected rest taken left position hs hsplit ih begun hb
    rw [tokens_ident hs hsplit]
    cases hs with
    | idName =>
      obtain ⟨⟩ | ⟨⟩ | hm := hb
      obtain ⟨terms, h⟩ := ih _ .start
      exact ⟨_, @Spells.group [_, _] _ _ _ (.id hm rfl) h⟩
    | elementName =>
      cases hb
      exact ih _ (.elementSuffix (.name (ofList_ne_anyName (Ident.derives_of_split? hsplit))))
    | className =>
      obtain ⟨⟩ | ⟨⟩ | ⟨⟩ | ⟨⟩ | ⟨ho, hm⟩ := hb
      obtain ⟨terms, h⟩ := ih _ .start
      exact ⟨_, @Spells.group [_, _, _] _ _ _ (.classed ho hm rfl) h⟩
  case noIdent =>
    intro state next kind expected rest position hs hsplit begun hb
    rw [tokens_no_ident hs hsplit]
    cases hb with
    | start | elementName => exact ⟨_, .stop rfl⟩
    | idName hm => exact ⟨_, .idMissing hm rfl⟩
    | elementSuffix => cases hs
    | className ho hm => exact ⟨_, .classMissing ho hm rfl⟩
  case suffixDot =>
    intro rest position ih begun hb
    rw [tokens_suffix_dot]
    obtain ⟨⟩ | ⟨⟩ | ⟨⟩ | ho | ⟨⟩ := hb
    exact ih _ (.className ho rfl)
  case suffix =>
    intro rest position hdot ih begun hb
    rw [tokens_suffix hdot]
    obtain ⟨⟩ | ⟨⟩ | ⟨⟩ | ho | ⟨⟩ := hb
    obtain ⟨terms, h⟩ := ih _ .start
    exact ⟨_, .group (.tag ho) h⟩

end Scanner

theorem exists_spells_tokenize (selector : String) : ∃ terms, Spells (tokenize selector) terms :=
  Scanner.spells_tokens Unicode.isAlphanumeric (.ofSelector selector) rfl [] .start

/-- **A chain says what the tokens say.** Spelled out again, the terms of a chain are the tokens of
the selector that put something into it, in the same order. Each class name follows a mark, and this
follows the token that has begun the latest term; this term is no id term and has no class, so the
class is put into it and nothing is replaced or added. -/
theorem compile_spelling (selector : String) :
    (compile selector).terms.flatMap Term.spelling =
      (tokenize selector).filterMap Token.content? ∧
    ∀ before token after, tokenize selector = before ++ token :: after →
      token.kind = .className →
      ∃ front opener mark term others, before = front ++ [opener, mark] ∧ Opens opener term ∧
        mark.kind = .classPrefix ∧
        front.foldl Compilation.receive .start = .building others ∧
        before.foldl Compilation.receive .start = .building (term :: others) ∧
        term.isIdTerm = false ∧ term.className = none ∧
        Compilation.receive (.building (term :: others)) token =
          .building (term.withClass token.text :: others) := by
  obtain ⟨terms, h⟩ := exists_spells_tokenize selector
  constructor
  · have hchain : compile selector = ⟨terms⟩ := h.chain_outcome []
    rw [hchain]
    exact h.flatMap_spelling
  · intro before token after hsplit hk
    obtain ⟨front, opener, mark, term, others, rfl, ho, hm, hfront⟩ :=
      h.exists_of_className hk hsplit []
    refine ⟨front, opener, mark, term, others, rfl, ho, hm, hfront, ?_, ho.not_isIdTerm,
      ho.className_eq_none, ?_⟩
    · rw [List.foldl_append, Compilation.start, hfront, List.foldl_cons, List.foldl_cons,
        ho.receive, Compilation.receive_mark (.inr hm)]
      rfl
    · rw [Compilation.receive_className hk, ho.setClass]

/-- A class behind an id belongs to a wildcard of its own, and so does a second class. -/
theorem compile_spelling_secondClass :
    tokenize "#a.b.c" = [⟨.idPrefix, "#", 0⟩, ⟨.id, "a", 1⟩, ⟨.wildcardShorthand, "", 2⟩,
        ⟨.classPrefix, ".", 2⟩, ⟨.className, "b", 3⟩, ⟨.wildcardShorthand, "", 4⟩,
        ⟨.classPrefix, ".", 4⟩, ⟨.className, "c", 5⟩, ⟨.endOfInput, "", 6⟩] ∧
      (compile "#a.b.c").terms.flatMap Term.spelling = [(.id, "a"), (.wildcard, "*"),
        (.className, "b"), (.wildcard, "*"), (.className, "c")] ∧
      ∃ term others, [⟨.idPrefix, "#", 0⟩, ⟨.id, "a", 1⟩, ⟨.wildcardShorthand, "", 2⟩,
          ⟨.classPrefix, ".", 2⟩, ⟨.className, "b", 3⟩, ⟨.wildcardShorthand, "", 4⟩,
          ⟨.classPrefix, ".", 4⟩].foldl Compilation.receive .start = .building (term :: others) ∧
        term.className = none ∧
        Compilation.receive (.building (term :: others)) ⟨.className, "c", 5⟩ =
          .building (term.withClass "c" :: others) := by
  have htokens : tokenize "#a.b.c" = [⟨.idPrefix, "#", 0⟩, ⟨.id, "a", 1⟩,
    ⟨.wildcardShorthand, "", 2⟩, ⟨.classPrefix, ".", 2⟩, ⟨.className, "b", 3⟩,
    ⟨.wildcardShorthand, "", 4⟩, ⟨.classPrefix, ".", 4⟩, ⟨.className, "c", 5⟩,
    ⟨.endOfInput, "", 6⟩] := rfl
  obtain ⟨hspelling, hclass⟩ := compile_spelling "#a.b.c"
  obtain ⟨_, _, _, term, others, -, -, -, -, hbefore, -, hnone, hreceive⟩ :=
    hclass [_, _, _, _, _, _, _] _ [_] htokens rfl
  exact ⟨htokens, hspelling.trans rfl, term, others, hbefore, hnone, hreceive⟩

end DomSelect
