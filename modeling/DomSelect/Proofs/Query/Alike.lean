import DomSelect.Proofs.Tree.Effects
import DomSelect.Query.Forms

/-!
# What a query sees

Of an element a query sees the tag, the set of its `id` values and the set of its `class` values, and
of any other node it sees that it is no element. Trees with the same links whose nodes are `Alike` in
this sense give the same answer to every query (`queries_eq_of_alike`): the order of attributes,
repeated and other attributes, texts and comments do not matter. Nor do parents, which no query
follows.
-/

namespace DomSelect

variable {element data : Element} {content shown : Content} {tree other : Tree} {parent : NodeId}

/-! ## Definitions -/

/-- Elements with the same tag, the same values of `id` and the same values of `class`. -/
structure Element.Alike (element other : Element) : Prop where
  tag : element.tag = other.tag
  ids (value : String) : ⟨"id", value⟩ ∈ element.attributes ↔ ⟨"id", value⟩ ∈ other.attributes
  classes (value : String) :
    ⟨"class", value⟩ ∈ element.attributes ↔ ⟨"class", value⟩ ∈ other.attributes

/-- Elements that are alike, or no elements at all. -/
def Content.Alike : Content → Content → Prop
  | .element data, .element other => data.Alike other
  | .element _, _ | _, .element _ => False
  | _, _ => True

/-- Trees with the same links and nodes that are alike. -/
structure Tree.Alike (tree other : Tree) : Prop where
  size : tree.size = other.size
  children (id : NodeId) : tree.children id = other.children id
  nextSibling? (id : NodeId) : tree.nextSibling? id = other.nextSibling? id
  content? (id : NodeId) : Option.Rel Content.Alike (tree.content? id) (other.content? id)

/-! ## Elements -/

theorem Element.mem_valuesOf {name value : String} :
    value ∈ element.valuesOf name ↔ ⟨name, value⟩ ∈ element.attributes := by
  simp only [valuesOf, List.mem_map, List.mem_filter, beq_iff_eq]
  constructor
  · rintro ⟨attr, ⟨hm, rfl⟩, rfl⟩
    exact hm
  · intro hm
    exact ⟨_, ⟨hm, rfl⟩, rfl⟩

/-- No term tells alike elements apart. -/
theorem Element.Alike.matchesElement_eq (h : element.Alike data) (term : Term) :
    term.matchesElement element = term.matchesElement data := by
  have hids : ∀ value, (element.valuesOf "id").contains value =
      (data.valuesOf "id").contains value := by
    intro value
    rw [Bool.eq_iff_iff, List.contains_iff_mem, List.contains_iff_mem, mem_valuesOf, mem_valuesOf]
    exact h.ids value
  have hclasses : ∀ test : String → Bool, (element.valuesOf "class").any test =
      (data.valuesOf "class").any test := by
    intro test
    rw [Bool.eq_iff_iff, List.any_eq_true, List.any_eq_true]
    refine exists_congr fun value => and_congr_left fun _ => ?_
    rw [mem_valuesOf, mem_valuesOf]
    exact h.classes value
  unfold Term.matchesElement
  simp only [hids, hclasses, h.tag]

/-! ## Nodes -/

namespace Tree

/-- The links to children are counted by the lists of all nodes. -/
theorem childLinks_eq (tree : Tree) :
    tree.childLinks = ((List.range tree.size).flatMap tree.children).length := by
  have hlists : tree.nodes.toList.map (·.children) = (List.range tree.size).map tree.children := by
    refine List.ext_getElem (by simp [size]) fun i hi hi' => ?_
    rw [List.getElem_map, List.getElem_map, List.getElem_range, Array.getElem_toList]
    rw [List.length_map, Array.length_toList] at hi
    unfold children node?
    rw [Array.getElem?_eq_getElem hi]
    rfl
  unfold childLinks
  rw [List.flatMap_def, List.flatMap_def, hlists]

end Tree

namespace Tree.Alike

theorem element? (h : tree.Alike other) (id : NodeId) :
    Option.Rel Element.Alike (tree.element? id) (other.element? id) := by
  have hcontent := h.content? id
  unfold Tree.element?
  generalize tree.content? id = found, other.content? id = found' at hcontent ⊢
  cases hcontent with
  | none => exact .none
  | @some content shown halike =>
    cases content with
    | element data =>
      cases shown with
      | element data' => exact .some halike
      | document | text | comment => exact halike.elim
    | document | text | comment =>
      cases shown with
      | element data' => exact halike.elim
      | document | text | comment => exact .none

/-- A test that cannot tell alike elements apart cannot tell the nodes apart. -/
theorem any_element? (h : tree.Alike other) (id : NodeId) {test : Element → Bool}
    (ht : ∀ element data, Element.Alike element data → test element = test data) :
    (tree.element? id).any test = (other.element? id).any test := by
  have helement := h.element? id
  generalize tree.element? id = found, other.element? id = found' at helement ⊢
  cases helement with
  | none => rfl
  | some halike => exact ht _ _ halike

theorem matchesNode_eq (h : tree.Alike other) (term : Term) (id : NodeId) :
    term.matchesNode tree id = term.matchesNode other id :=
  h.any_element? id fun _ _ halike => halike.matchesElement_eq term

theorem isForm_eq (h : tree.Alike other) : tree.isForm = other.isForm := by
  funext id
  exact h.any_element? id fun _ _ halike => by rw [halike.tag]

/-! ## Links -/

theorem contains_eq (h : tree.Alike other) (id : NodeId) : tree.contains id = other.contains id := by
  unfold contains
  rw [h.size]

theorem linkedChildren_eq (h : tree.Alike other) (id : NodeId) :
    tree.linkedChildren id = other.linkedChildren id := by
  have hnext : tree.nextSibling? = other.nextSibling? := funext h.nextSibling?
  unfold linkedChildren
  rw [firstChild?_eq_head?, firstChild?_eq_head?, h.children, h.size, hnext]

theorem descendants_eq (h : tree.Alike other) (id : NodeId) :
    tree.descendants id = other.descendants id := by
  have hchildren : tree.children = other.children := funext h.children
  have hlinks : tree.childLinks = other.childLinks := by
    rw [childLinks_eq, childLinks_eq, hchildren, h.size]
  unfold descendants
  rw [h.contains_eq, hchildren, h.size, hlinks]

theorem forms_eq (h : tree.Alike other) : tree.forms = other.forms := by
  unfold forms
  rw [h.descendants_eq, h.isForm_eq]

/-! ## Walks -/

theorem hits_eq (h : tree.Alike other) (terms : List Term) :
    Walk.hits tree terms = Walk.hits other terms :=
  Walk.hits_congr terms h.matchesNode_eq

theorem positionBelow_eq (h : tree.Alike other) (terms : List Term) :
    Walk.positionBelow tree terms = Walk.positionBelow other terms :=
  Walk.positionBelow_congr terms (h.hits_eq terms)

theorem expand_eq (h : tree.Alike other) (terms : List Term) :
    Walk.expand tree terms = Walk.expand other terms := by
  funext entry
  unfold Walk.expand
  rw [h.positionBelow_eq, h.linkedChildren_eq]

/-- Every entry is hit or missed in both trees and expands to the same entries, so the walks make the
same visits and reports. -/
theorem walk_eq (h : tree.Alike other) (start : NodeId) (terms : List Term) (mode : MatchMode) :
    walk tree start terms mode = walk other start terms mode := by
  unfold walk Walk.visits Walk.reports
  rw [h.expand_eq, h.size, h.hits_eq, h.positionBelow_eq]

theorem findAllFrom_eq (h : tree.Alike other) (start : NodeId) (chain : Chain) (mode : MatchMode) :
    (tree.findAllFrom start chain mode).map (·.nodes) =
      (other.findAllFrom start chain mode).map (·.nodes) := by
  unfold findAllFrom
  rw [h.contains_eq]
  split
  · exact congrArg Except.ok (h.walk_eq start chain.terms mode)
  · rfl

theorem firstWithMatch_eq (h : tree.Alike other) (chain : Chain) (ids : List NodeId) :
    tree.firstWithMatch chain ids = other.firstWithMatch chain ids := by
  induction ids with
  | nil => rfl
  | cons id rest ih =>
    unfold firstWithMatch findAllFrom
    rw [h.contains_eq]
    cases other.contains id with
    | false => rfl
    | true =>
      simp only [Selection.isEmpty, h.walk_eq, ih, if_true]
      rfl

theorem findForm_eq (h : tree.Alike other) (selector : String) :
    tree.findForm selector = other.findForm selector := by
  unfold findForm
  cases compileStrict selector with
  | error error => rfl
  | ok chain => simp only [h.firstWithMatch_eq, h.forms_eq]

/-! ## Trees built alike -/

theorem refl (tree : Tree) : tree.Alike tree := by
  refine ⟨rfl, fun _ => rfl, fun _ => rfl, fun id => ?_⟩
  cases tree.content? id with
  | none => exact .none
  | some content =>
    refine .some ?_
    cases content with
    | element data => exact ⟨rfl, fun _ => Iff.rfl, fun _ => Iff.rfl⟩
    | document | text | comment => trivial

/-- Nodes that are alike, attached at the same place. -/
theorem addChild (h : tree.Alike other) (hp : parent < tree.size) (hc : content.Alike shown) :
    (tree.addChild parent content).Alike (other.addChild parent shown) := by
  have hp' : parent < other.size := h.size ▸ hp
  refine ⟨?_, fun id => ?_, fun id => ?_, fun id => ?_⟩
  · rw [size_addChild, size_addChild, h.size]
  · rw [children_addChild hp, children_addChild hp', h.children, h.size]
  · unfold Tree.addChild
    rw [nextSibling?_append, nextSibling?_append, lastChild?_eq_getLast?, lastChild?_eq_getLast?]
    simp only [children_alloc, nextSibling?_alloc, size_alloc, h.children, h.nextSibling?, h.size]
  · rw [content?_addChild, content?_addChild, h.size]
    split
    · exact .some hc
    · exact h.content? id

end Tree.Alike

/-- **A query sees only tags, values of `id` and of `class`, and links.** Trees that agree in these
give the same answer to every query: the same matches of every chain from every node in both modes, or
the same refusal; the same forms; and the same form, or the same error, for every selector. -/
theorem queries_eq_of_alike (h : tree.Alike other) :
    (∀ start chain mode, (tree.findAllFrom start chain mode).map (·.nodes) =
      (other.findAllFrom start chain mode).map (·.nodes)) ∧
    tree.forms = other.forms ∧
    ∀ selector, tree.findForm selector = other.findForm selector :=
  ⟨h.findAllFrom_eq, h.forms_eq, h.findForm_eq⟩

/-- A form with two classes and a comment in it. -/
def searchForm : Tree :=
  (Tree.initial.addChild 0 (.element ⟨"form", [⟨"id", "search"⟩, ⟨"class", "wide"⟩,
    ⟨"class", "top"⟩]⟩)).addChild 1 (.comment "by name")

/-- The same with the attributes in another order, one of them twice, and with a text. -/
def shuffledForm : Tree :=
  (Tree.initial.addChild 0 (.element ⟨"form", [⟨"class", "top"⟩, ⟨"action", "/find"⟩,
    ⟨"class", "wide"⟩, ⟨"id", "search"⟩, ⟨"class", "top"⟩]⟩)).addChild 1 (.text "name")

/-- The class that is written last in one form is found in the other, where it is written first. -/
theorem queries_eq_of_alike_searchForm :
    searchForm.Alike shuffledForm ∧ searchForm.findForm "form.top" = .ok 1 ∧
      shuffledForm.findForm "form.top" = .ok 1 := by
  have hform : Content.Alike
      (.element ⟨"form", [⟨"id", "search"⟩, ⟨"class", "wide"⟩, ⟨"class", "top"⟩]⟩)
      (.element ⟨"form", [⟨"class", "top"⟩, ⟨"action", "/find"⟩, ⟨"class", "wide"⟩,
        ⟨"id", "search"⟩, ⟨"class", "top"⟩]⟩) :=
    Element.Alike.mk rfl (fun value => by simp) fun value => by simpa using Or.inr
  have h : searchForm.Alike shuffledForm :=
    ((Tree.Alike.refl .initial).addChild Nat.zero_lt_one hform).addChild
      (Nat.lt_succ_self _) trivial
  have hfound : searchForm.findForm "form.top" = .ok 1 := rfl
  exact ⟨h, hfound, ((queries_eq_of_alike h).2.2 _).symm.trans hfound⟩

end DomSelect
