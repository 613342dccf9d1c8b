import DomSelect.Proofs.Tree.Descendants

/-!
# Up and down

Who climbs from a node along parents, and who lists the descendants of a node with a stack, agree on
what lies below what (`WellBuilt.ancestry_agrees`). The list is in tree order (`IsTreeOrder`): a node
comes after its parent, and all that is at or below a child comes before all that is at or below a
later child.
-/

namespace DomSelect.Tree

variable {tree : Tree} {node top parent : NodeId}

/-- The list has `top` first and no node twice, each node after its parent, and all that is at or
below a child in one piece before all that is at or below a later child. -/
structure IsTreeOrder (tree : Tree) (top : NodeId) (nodes : List NodeId) : Prop where
  first : nodes.head? = some top
  nodup : nodes.Nodup
  parent_first {node : NodeId} : node ∈ nodes → node ≠ top →
    ∃ parent, tree.parent? node = some parent ∧ [parent, node].Sublist nodes
  elder_first {parent elder younger : NodeId} : parent ∈ nodes →
    [elder, younger].Sublist (tree.children parent) →
      ∃ front between back, nodes =
        front ++ tree.descendants elder ++ between ++ tree.descendants younger ++ back

namespace Linked

theorem isDescendantOf_iff_mem_descendants (h : tree.Linked) :
    tree.isDescendantOf node top = true ↔ node ∈ tree.descendants top ∧ node ≠ top := by
  rw [h.isDescendantOf_iff]
  constructor
  · intro hb
    exact ⟨(h.mem_descendants_iff (h.below_lt hb).2).mpr hb.within, h.ne_of_below hb⟩
  · rintro ⟨hm, hne⟩
    have hw := (h.mem_descendants_iff (lt_size_of_mem_descendants hm)).mp hm
    exact (within_iff.mp hw).resolve_left hne

/-- What is at or below an elder child and what is at or below a younger one are two pieces of the
list of their parent. -/
theorem exists_descendants_eq_of_siblings (h : tree.Linked) {elder younger : NodeId}
    (hs : [elder, younger].Sublist (tree.children parent)) :
    ∃ front between back, tree.descendants parent =
      front ++ tree.descendants elder ++ between ++ tree.descendants younger ++ back := by
  obtain ⟨before, after, hsplit, helder, hyounger⟩ := List.cons_sublist_iff.mp hs
  have hp : parent < tree.size :=
    h.parent_lt (h.mem_children.mp (hs.subset List.mem_cons_self))
  obtain ⟨front, between, hbefore⟩ := List.infix_flatMap_of_mem helder tree.descendants
  obtain ⟨between', back, hafter⟩ :=
    List.infix_flatMap_of_mem (List.singleton_sublist.mp hyounger) tree.descendants
  refine ⟨parent :: front, between ++ between', back, ?_⟩
  rw [h.descendants_eq hp, hsplit, List.flatMap_append, ← hbefore, ← hafter]
  simp only [List.cons_append, List.append_assoc]

theorem isTreeOrder_descendants (h : tree.Linked) (ht : top < tree.size) :
    tree.IsTreeOrder top (tree.descendants top) where
  first := by
    rw [h.descendants_eq ht]
    rfl
  nodup := h.nodup_descendants top
  parent_first {node} hm hne := by
    have hb := (within_iff.mp ((h.mem_descendants_iff ht).mp hm)).resolve_left hne
    obtain ⟨parent, hp, hw⟩ := below_iff_parent.mp hb
    have hlt := h.parent_lt hp
    -- the parent heads its own piece of the list, and the node is in that piece
    have hnode : node ∈ (tree.children parent).flatMap tree.descendants := by
      refine List.mem_flatMap.mpr ⟨node, h.mem_children.mpr hp, ?_⟩
      exact (h.mem_descendants_iff (child_lt hp)).mpr (.refl ..)
    refine ⟨parent, hp, List.Sublist.trans ?_ (h.descendants_infix hw).sublist⟩
    rw [h.descendants_eq hlt]
    exact (List.singleton_sublist.mpr hnode).cons_cons parent
  elder_first {parent elder younger} hm hs := by
    obtain ⟨front, between, back, hpieces⟩ := h.exists_descendants_eq_of_siblings hs
    obtain ⟨before, after, hpiece⟩ := h.descendants_infix ((h.mem_descendants_iff ht).mp hm)
    refine ⟨before ++ front, between, back ++ after, ?_⟩
    rw [← hpiece, hpieces]
    simp only [List.append_assoc]

/-- The nodes below `top` are those whose chain of parents leads through it. -/
theorem mem_descendants_iff_leadsThrough (h : tree.Linked) (ht : top < tree.size) :
    node ∈ tree.descendants top ↔
      ∃ way, LeadsThrough tree.parent? (some node) way ∧ top ∈ way := by
  rw [h.mem_descendants_iff ht]
  have hmem : top ∈ node :: tree.ancestors node ↔ tree.Within node top := by
    rw [List.mem_cons, h.mem_ancestors_iff, within_iff, eq_comm]
  constructor
  · intro hw
    exact ⟨_, h.leadsThrough_ancestors (h.within_lt ht hw), hmem.mpr hw⟩
  · rintro ⟨way, hlead, hin⟩
    by_cases hn : node < tree.size
    · rw [hlead.unique (h.leadsThrough_ancestors hn)] at hin
      exact hmem.mp hin
    · -- a number that is no node has no parent, so it is all there is on its way
      have hend : LeadsThrough tree.parent? (some node) [node] := by
        refine .passes ?_
        rw [parent?_of_size_le (Nat.le_of_not_lt hn)]
        exact .ends
      rw [hlead.unique hend, List.mem_singleton] at hin
      rw [hin]
      exact .refl ..

end Linked

theorem WellBuilt.size_pos (h : WellBuilt tree) : root < tree.size := by
  induction h with
  | initial => exact Nat.zero_lt_one
  | alloc _ content ih =>
    rw [size_alloc]
    exact Nat.lt_succ_of_lt ih
  | append _ _ _ _ attached ih =>
    obtain ⟨-, -, rfl⟩ := append?_eq_some_iff.mp attached
    rwa [size_append]

/-- **Climbing and listing agree.** In a tree with a disciplined history a node is below another one,
as found by climbing, exactly if it is among the descendants of this one and a different node. The
descendants of a node are listed in tree order, and those of the document are the nodes whose chain of
parents leads through it. So no node is below itself, and what is below something that is below a
node is below this node. -/
theorem WellBuilt.ancestry_agrees (h : tree.WellBuilt) :
    (∀ node top, tree.isDescendantOf node top = true ↔
      node ∈ tree.descendants top ∧ node ≠ top) ∧
    (∀ top, tree.contains top = true → tree.IsTreeOrder top (tree.descendants top)) ∧
    (∀ node, node ∈ tree.descendants root ↔
      ∃ way, LeadsThrough tree.parent? (some node) way ∧ root ∈ way) ∧
    (∀ node, tree.isDescendantOf node node = false) ∧
    ∀ low middle high, tree.isDescendantOf low middle = true →
      tree.isDescendantOf middle high = true → tree.isDescendantOf low high = true := by
  have hl := h.linked
  refine ⟨fun node top => hl.isDescendantOf_iff_mem_descendants, fun top ht => ?_, fun node => ?_,
    fun node => ?_, fun low middle high hlow hhigh => ?_⟩
  · exact hl.isTreeOrder_descendants (contains_iff.mp ht)
  · exact hl.mem_descendants_iff_leadsThrough h.size_pos
  · rw [Bool.eq_false_iff, ne_eq, hl.isDescendantOf_iff]
    exact hl.acyclic node
  · rw [hl.isDescendantOf_iff] at hlow hhigh ⊢
    exact hlow.trans_within hhigh.within

theorem ancestry_agrees_lateDivision :
    lateDivision.WellBuilt ∧ lateDivision.descendants 0 = [0, 3, 1, 2] ∧
      lateDivision.isDescendantOf 2 1 = true ∧ lateDivision.isDescendantOf 1 0 = true ∧
      lateDivision.isDescendantOf 2 0 = true ∧ lateDivision.isDescendantOf 2 3 = false ∧
      lateDivision.IsTreeOrder 0 [0, 3, 1, 2] ∧
      ∃ way, LeadsThrough lateDivision.parent? (some 2) way ∧ 0 ∈ way := by
  obtain ⟨hmem, horder, hroot, -, htrans⟩ := wellBuilt_lateDivision.ancestry_agrees
  have hlist : lateDivision.descendants 0 = [0, 3, 1, 2] := rfl
  have hlow : lateDivision.isDescendantOf 2 1 = true := by decide
  have hhigh : lateDivision.isDescendantOf 1 0 = true := by decide
  have hout : lateDivision.isDescendantOf 2 3 = false := by decide
  refine ⟨wellBuilt_lateDivision, hlist, hlow, hhigh, htrans 2 1 0 hlow hhigh, hout, ?_, ?_⟩
  · have := horder 0 (by decide)
    rwa [hlist] at this
  · exact (hroot 2).mp (by rw [show lateDivision.descendants root = [0, 3, 1, 2] from hlist]; decide)

end DomSelect.Tree
