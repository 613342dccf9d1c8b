import DomSelect.Proofs.Selector.RoundTrip
import DomSelect.Query.Selection

/-!
# Chains that are written and read back

A term may hold criteria that its written form leaves out: empty ones, and all others beside an id.
`Term.normal` is what is left of it. It is written as the term is (`render_normal`), and it matches
the same elements (`matchesElement_normal`), since writing and matching ask for the same criteria:
the id that is set, or else the tag and the class that are set.

So if what is set is made of identifiers (`Writable`), the written form of a chain is a selector,
and the chain that is read back takes the place of the first one in every query
(`compileStrict_render_writable`).
-/

namespace DomSelect

open Scanner

variable {tree : Tree} {terms : List Term} {term : Term} {chain : Chain} {value : String}

/-! ## Definitions -/

/-- What the written form of a term shows. -/
def Term.normal (term : Term) : Term :=
  match term.id? with
  | some value => .byId value
  | none => ⟨none, some ((setText? term.elementName).getD anyName), term.class?⟩

/-- The terms in the normal form. -/
def Chain.normal (chain : Chain) : Chain := ⟨chain.terms.map Term.normal⟩

/-- Each criterion is absent, empty, or what can stand at its place in a selector. -/
structure Term.Writable (term : Term) : Prop where
  id (value : String) (h : term.id = some value) : value = "" ∨ IsIdent value.toList
  elementName (name : String) (h : term.elementName = some name) :
    name = "" ∨ name = anyName ∨ IsElementName name.toList
  className (value : String) (h : term.className = some value) : value = "" ∨ IsIdent value.toList

/-- Every term is writable. -/
def Chain.Writable (chain : Chain) : Prop := ∀ term ∈ chain.terms, term.Writable

/-! ## Terms -/

namespace Term

theorem setText?_eq_some_iff {criterion : Option String} :
    setText? criterion = some value ↔ criterion = some value ∧ value ≠ "" := by
  rw [setText?, Option.filter_eq_some_iff, bne_iff_ne]

/-- A criterion that is set stays set. -/
theorem setText?_setText? (criterion : Option String) :
    setText? (setText? criterion) = setText? criterion := by
  rw [setText?, setText?, Option.filter_filter]
  simp only [Bool.and_self]

theorem normal_of_id? (h : term.id? = some value) : term.normal = .byId value := by
  rw [normal, h]

theorem normal_of_id?_eq_none (h : term.id? = none) :
    term.normal = ⟨none, some ((setText? term.elementName).getD anyName), term.class?⟩ := by
  rw [normal, h]

theorem id?_byId (h : term.id? = some value) : (byId value).id? = some value := by
  obtain ⟨-, hne⟩ := setText?_eq_some_iff.mp h
  exact setText?_eq_some_iff.mpr ⟨rfl, hne⟩

/-- The name that is written is set. -/
theorem setText?_getD (term : Term) : setText? (some ((setText? term.elementName).getD anyName)) =
    some ((setText? term.elementName).getD anyName) := by
  refine setText?_eq_some_iff.mpr ⟨rfl, ?_⟩
  cases hname : setText? term.elementName with
  | none => decide
  | some name => exact (setText?_eq_some_iff.mp hname).2

theorem render_normal (term : Term) : term.normal.render = term.render := by
  cases hid : term.id? with
  | some value =>
    rw [normal_of_id? hid, render, render, id?_byId hid, hid]
  | none =>
    rw [normal_of_id?_eq_none hid, render, render, hid, setText?_getD]
    simp only [id?, class?, setText?_setText?, Option.getD_some]
    rfl

/-- A tag that is not written is not asked for. -/
theorem tag?_normal (h : term.id? = none) : term.normal.tag? = term.tag? := by
  rw [normal_of_id?_eq_none h, tag?, tag?, setText?_getD]
  cases setText? term.elementName <;> rfl

theorem class?_normal (h : term.id? = none) : term.normal.class? = term.class? := by
  rw [normal_of_id?_eq_none h, class?, class?, setText?_setText?]

theorem matchesElement_normal (term : Term) : term.normal.matchesElement = term.matchesElement := by
  funext element
  cases hid : term.id? with
  | some value =>
    rw [normal_of_id? hid, matchesElement, matchesElement, id?_byId hid, hid]
  | none =>
    have hnormal : term.normal.id? = none := by
      rw [normal_of_id?_eq_none hid]
      rfl
    rw [matchesElement, matchesElement, hnormal, hid, tag?_normal hid, class?_normal hid]

theorem matchesNode_normal (term : Term) : term.normal.matchesNode = term.matchesNode := by
  funext tree id
  rw [matchesNode, matchesNode, matchesElement_normal]

theorem Writable.canonical (h : term.Writable) : term.normal.Canonical := by
  cases hid : term.id? with
  | some value =>
    obtain ⟨hvalue, hne⟩ := setText?_eq_some_iff.mp hid
    rw [normal_of_id? hid]
    exact .byId ((h.id value hvalue).resolve_left hne)
  | none =>
    rw [normal_of_id?_eq_none hid]
    refine .ofName ?_ fun value hclass => ?_
    · cases hname : setText? term.elementName with
      | none => exact .inl rfl
      | some name =>
        obtain ⟨hvalue, hne⟩ := setText?_eq_some_iff.mp hname
        exact (h.elementName name hvalue).resolve_left hne
    · obtain ⟨hvalue, hne⟩ := setText?_eq_some_iff.mp hclass
      exact (h.className value hvalue).resolve_left hne

end Term

/-! ## Chains -/

namespace Chain

theorem render_normal (chain : Chain) : chain.normal.render = chain.render := by
  rw [render, render, normal, List.map_map]
  congr 2
  funext term
  exact term.render_normal

theorem Writable.canonical (h : chain.Writable) : chain.normal.Canonical := by
  intro term hmem
  obtain ⟨given, hgiven, rfl⟩ := List.mem_map.mp hmem
  exact (h given hgiven).canonical

end Chain

/-! ## Queries -/

namespace Walk

variable {change : Term → Term}

/-- Terms may be exchanged for others that match the same nodes. -/
theorem hits_map (h : ∀ term ∈ terms, (change term).matchesNode tree = term.matchesNode tree) :
    hits tree (terms.map change) = hits tree terms := by
  funext entry
  rw [hits, hits, List.getElem?_map]
  cases hterm : terms[entry.position]? with
  | none => rfl
  | some term =>
    rw [Option.map_some, Option.any_some, Option.any_some, h term (List.mem_of_getElem? hterm)]

theorem walk_map (h : ∀ term ∈ terms, (change term).matchesNode tree = term.matchesNode tree)
    (start : NodeId) (mode : MatchMode) :
    walk tree start (terms.map change) mode = walk tree start terms mode := by
  have hhits := hits_map h
  have hbelow : positionBelow tree (terms.map change) = positionBelow tree terms := by
    unfold positionBelow
    rw [hhits]
  have hexpand : expand tree (terms.map change) = expand tree terms := by
    unfold expand
    rw [hbelow, List.length_map]
  unfold walk visits reports
  rw [hhits, hbelow, hexpand, List.length_map, List.isEmpty_map]

end Walk

/-- **A written chain keeps its meaning.** If the criteria of a chain that are present are empty or
can stand in a selector, in any combination, the written form is a selector. It compiles to as many
terms, each of which matches the same elements as the term at its place, and the queries with both
chains report the same nodes of every tree. -/
theorem compileStrict_render_writable (h : chain.Writable) :
    ∃ written : Chain, compileStrict chain.render = .ok written ∧ written.length = chain.length ∧
      (∀ (i : Nat) (term other : Term), chain.terms[i]? = some term →
        written.terms[i]? = some other →
          ∀ element, other.matchesElement element = term.matchesElement element) ∧
      ∀ tree mode, Tree.findAllWith tree written mode = tree.findAllWith chain mode := by
  have hread : compileStrict chain.render = .ok chain.normal := by
    rw [← chain.render_normal]
    exact compileStrict_eq_ok (compileFrom_render agreesOnAscii_unicode h.canonical [] 0)
  refine ⟨chain.normal, hread, List.length_map .., ?_, fun tree mode => ?_⟩
  · intro i term other hterm hother element
    rw [Chain.normal, List.getElem?_map, hterm] at hother
    obtain rfl := Option.some.inj hother
    rw [term.matchesElement_normal]
  · rw [Tree.findAllWith, Tree.findAllWith, Chain.normal]
    rw [Walk.walk_map fun term _ => by rw [term.matchesNode_normal]]

/-- An id beside a tag and a class, an empty id and an empty tag beside a class, an empty class, and
a term without criteria. -/
def mixedChain : Chain :=
  ⟨[⟨some "a", some "p", some "x"⟩, ⟨some "", some "", some "y"⟩, ⟨none, some "div", some ""⟩,
    ⟨none, none, none⟩]⟩

theorem writable_mixedChain : mixedChain.Writable := by
  simp only [Chain.Writable, mixedChain, List.forall_mem_cons]
  refine ⟨⟨?_, ?_, ?_⟩, ⟨?_, ?_, ?_⟩, ⟨nofun, ?_, ?_⟩, ⟨nofun, nofun, nofun⟩, by simp⟩
  all_goals rintro _ ⟨⟩
  · exact .inr rfl
  · exact .inr (.inr ⟨rfl, 'p', rfl, Or.inr rfl⟩)
  · exact .inr rfl
  · exact .inl rfl
  · exact .inl rfl
  · exact .inr rfl
  · exact .inr (.inr ⟨rfl, 'd', rfl, Or.inr rfl⟩)
  · exact .inl rfl

theorem compileStrict_render_writable_mixedChain :
    mixedChain.Writable ∧ mixedChain.render = "#a *.y div *" ∧
      compileStrict "#a *.y div *" =
        .ok ⟨[.byId "a", Term.wildcard.withClass "y", .ofName "div", .wildcard]⟩ ∧
      ∀ tree mode, Tree.findAllWith tree
          ⟨[.byId "a", Term.wildcard.withClass "y", .ofName "div", .wildcard]⟩ mode =
        tree.findAllWith mixedChain mode := by
  have hrender : mixedChain.render = "#a *.y div *" := rfl
  have hread : compileStrict "#a *.y div *" =
      .ok ⟨[.byId "a", Term.wildcard.withClass "y", .ofName "div", .wildcard]⟩ := rfl
  obtain ⟨written, hwritten, -, -, hqueries⟩ := compileStrict_render_writable writable_mixedChain
  obtain rfl := Except.ok.inj ((hrender ▸ hwritten).symm.trans hread)
  exact ⟨writable_mixedChain, hrender, hread, hqueries⟩

end DomSelect
