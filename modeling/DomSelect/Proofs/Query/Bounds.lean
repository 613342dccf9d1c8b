import DomSelect.Proofs.Query.FormLookup
import Mathlib.Data.List.Forall2

/-!
# Queries stay in the tree

Whatever the history of a tree, its links lead to nodes of the tree (`Tree.Built.closed`). So do the
traversals that follow them, however many steps they make and whether they end or not
(`Tree.Closed.lt_of_pending_walk`, `Tree.Closed.lt_of_pending_children`). Nothing that a query reports
is then lost where its element is looked up, and no form is refused where it is searched
(`queries_stay_in_tree`).
-/

namespace DomSelect

open DomSelect.Preorder (Traversal)

variable {tree : Tree} {start : NodeId} {ids : List NodeId}

namespace Tree

/-! ## Traversals -/

namespace Closed

/-- Going down by the lists of children. -/
theorem lt_of_pending_children (h : tree.Closed) (hs : start < tree.size) (count : Nat) :
    ∀ node ∈ (Traversal.steps tree.children count ⟨[start], []⟩).pending, node < tree.size := by
  apply Traversal.forall_pending_steps
  · intro node _ child hc
    exact h.children hc
  · exact List.forall_mem_singleton.mpr hs

/-- Going down by first children and next siblings. -/
theorem lt_of_pending_walk (h : tree.Closed) (hs : start < tree.size) (terms : List Term)
    (count : Nat) :
    ∀ entry ∈ (Traversal.steps (Walk.expand tree terms) count ⟨[⟨start, 0⟩], []⟩).pending,
      entry.node < tree.size := by
  apply Traversal.forall_pending_steps
  · intro entry _ below hb
    unfold Walk.expand at hb
    simp only at hb
    split at hb
    · exact absurd hb List.not_mem_nil
    · obtain ⟨child, hc, rfl⟩ := List.mem_map.mp hb
      exact h.lt_of_mem_linkedChildren hc
  · exact List.forall_mem_singleton.mpr hs

end Closed

/-! ## Lookups that cannot fail -/

/-- Where all starts are nodes of the tree, no query from them is refused. -/
theorem exists_firstWithMatch (chain : Chain) (hids : ∀ id ∈ ids, id < tree.size) :
    ∃ found, tree.firstWithMatch chain ids = .ok found := by
  induction ids with
  | nil => exact ⟨none, rfl⟩
  | cons id rest ih =>
    obtain ⟨hid, hrest⟩ := List.forall_mem_cons.mp hids
    rw [firstWithMatch, findAllFrom, if_pos (contains_iff.mpr hid)]
    simp only
    split
    · exact ih hrest
    · exact ⟨some id, rfl⟩

theorem findForm_ne_nodeNotInTree (tree : Tree) (selector : String) (id : NodeId) :
    tree.findForm selector ≠ .error (.nodeNotInTree id) := by
  unfold findForm
  cases compileStrict selector with
  | error error => nofun
  | ok chain =>
    obtain ⟨found, hfound⟩ := exists_firstWithMatch chain (forms_lt tree)
    simp only [hfound]
    cases found <;> nofun

end Tree

/-! ## Selections -/

/-- If each node has an element of this kind, looking them up gives one for each. -/
theorem forall₂_filterMap {kind : Element → Prop}
    (h : ∀ node ∈ ids, ∃ element, tree.element? node = some element ∧ kind element) :
    List.Forall₂ (fun node element => tree.element? node = some element ∧ kind element) ids
      (ids.filterMap tree.element?) := by
  induction ids with
  | nil => exact .nil
  | cons node rest ih =>
    obtain ⟨⟨element, helement, hkind⟩, hrest⟩ := List.forall_mem_cons.mp h
    rw [List.filterMap_cons_some helement]
    exact .cons ⟨helement, hkind⟩ (ih hrest)

/-- **Queries stay in the tree.** For a tree with any history, every link leads to a node of the tree.
Nothing else ever becomes pending in a traversal that starts at a node of the tree, by the lists of
children or by the links of siblings. The elements of a selection are those at its nodes, one for each
and in the same order, and each of them matches a term of the chain. The forms are elements of the
tree, and no form lookup asks for a node that is not in the tree. -/
theorem queries_stay_in_tree (h : tree.Built) :
    (∀ node, (∀ child ∈ tree.children node, child < tree.size) ∧
      (∀ parent, tree.parent? node = some parent → parent < tree.size) ∧
      ∀ next, tree.nextSibling? node = some next → next < tree.size) ∧
    (∀ start < tree.size, ∀ count,
      (∀ node ∈ (Traversal.steps tree.children count ⟨[start], []⟩).pending, node < tree.size) ∧
      ∀ terms, ∀ entry ∈
          (Traversal.steps (Walk.expand tree terms) count ⟨[⟨start, 0⟩], []⟩).pending,
        entry.node < tree.size) ∧
    (∀ start chain mode selection, selection = tree.findAllWith chain mode ∨
        tree.findAllFrom start chain mode = .ok selection →
      selection.elements.length = selection.length ∧
      (∀ node ∈ selection.nodes, node < tree.size) ∧
      List.Forall₂ (fun node element => tree.element? node = some element ∧
          ∃ term ∈ chain.terms, term.matchesElement element = true)
        selection.nodes selection.elements) ∧
    (∀ form ∈ tree.forms, form < tree.size ∧
      ∃ element, tree.element? form = some element ∧ element.tag = "form") ∧
    ∀ selector id, tree.findForm selector ≠ .error (.nodeNotInTree id) := by
  have hc := h.closed
  refine ⟨fun node => ⟨fun _ => hc.children, fun _ => hc.parent, fun _ => hc.nextSibling⟩,
    fun start hs count => ⟨hc.lt_of_pending_children hs count,
      fun terms => hc.lt_of_pending_walk hs terms count⟩, ?_, ?_, tree.findForm_ne_nodeNotInTree⟩
  · intro start chain mode selection hselection
    obtain ⟨top, rfl⟩ : ∃ top, selection = ⟨tree, walk tree top chain.terms mode⟩ := by
      rcases hselection with rfl | hok
      · exact ⟨Tree.root, rfl⟩
      · unfold Tree.findAllFrom at hok
        split at hok
        · exact ⟨start, (Except.ok.inj hok).symm⟩
        · cases hok
    have hmatch : ∀ node ∈ walk tree top chain.terms mode, ∃ element,
        tree.element? node = some element ∧
          ∃ term ∈ chain.terms, term.matchesElement element = true :=
      fun node hn => exists_match_of_mem_walk hn
    refine ⟨(forall₂_filterMap hmatch).length_eq.symm, fun node hn => ?_, forall₂_filterMap hmatch⟩
    obtain ⟨element, helement, -⟩ := hmatch node hn
    exact Tree.lt_size_of_element? helement
  · intro form hform
    refine ⟨Tree.forms_lt tree form hform, ?_⟩
    exact Tree.isForm_iff.mp (List.mem_filter.mp hform).2

/-- A form with a paragraph in it, to which the form itself is then attached. -/
def loopedForm : Tree :=
  ((Tree.initial.addChild 0 (.element ⟨"form", []⟩)).addChild 1 (.element ⟨"p", []⟩)).append 2 1

theorem built_loopedForm : loopedForm.Built := by
  have h1 := @Tree.Built.append _ _ 0 1 (Tree.Built.initial.alloc (.element ⟨"form", []⟩)) rfl
  have h2 := @Tree.Built.append _ _ 1 2 (h1.alloc (.element ⟨"p", []⟩)) rfl
  exact @Tree.Built.append _ _ 2 1 h2 rfl

/-- The form is below itself, but a walk that finds the paragraph goes no further: it reports an
element of the tree. -/
theorem queries_stay_in_tree_loopedForm :
    loopedForm.Built ∧ loopedForm.children 2 = [1] ∧ loopedForm.parent? 1 = some 2 ∧
      loopedForm.findAllFrom 1 ⟨[.ofName "p"]⟩ .strict = .ok ⟨loopedForm, [2]⟩ ∧
      (Selection.mk loopedForm [2]).elements.length = 1 ∧
      ∀ count, ∀ node ∈ (Traversal.steps loopedForm.children count ⟨[1], []⟩).pending,
        node < 3 := by
  obtain ⟨-, htraversals, hqueries, -⟩ := queries_stay_in_tree built_loopedForm
  have hfound : loopedForm.findAllFrom 1 ⟨[.ofName "p"]⟩ .strict = .ok ⟨loopedForm, [2]⟩ := rfl
  obtain ⟨hlength, -⟩ := hqueries 1 ⟨[.ofName "p"]⟩ .strict _ (.inr hfound)
  have hone : 1 < loopedForm.size := by decide
  exact ⟨built_loopedForm, rfl, rfl, hfound, hlength, fun count => (htraversals 1 hone count).1⟩

end DomSelect
