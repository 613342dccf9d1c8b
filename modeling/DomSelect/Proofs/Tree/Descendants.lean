import DomSelect.Proofs.Tree.Histories

/-!
# Descendants in tree order

Where the lists of children do not lead down for ever (`EndsBelow`), the descendants of a node are
what these lists unfold to (`Closed.unfolds_descendants`). Below a node of a linked tree they always
unfold (`Linked.unfolds_descendants`), so its descendants are the node itself and then, child by
child, the descendants of its children (`Linked.descendants_eq`). They are the nodes from which a
chain of parents leads to it (`Linked.mem_descendants_iff`), each of them once.
-/

namespace DomSelect.Tree

open DomSelect.Preorder (Unfolds)

variable {tree : Tree} {node top parent child : NodeId}

/-- Whoever goes down from a node, by the lists of children, comes to an end on every way. -/
def EndsBelow (tree : Tree) (node : NodeId) : Prop :=
  Acc (fun child parent => child ∈ tree.children parent) node

theorem length_children_le_childLinks (tree : Tree) (node : NodeId) :
    (tree.children node).length ≤ tree.childLinks := by
  unfold children
  cases h : tree.node? node with
  | none => exact Nat.zero_le _
  | some found =>
    have hm : found ∈ tree.nodes.toList := Array.mem_toList_iff.mpr (Array.mem_of_getElem? h)
    have hsub : found.children.Sublist (tree.nodes.toList.flatMap (·.children)) :=
      List.sublist_flatten_of_mem (List.mem_map_of_mem hm)
    exact hsub.length_le

theorem descendants_of_size_le (hn : tree.size ≤ node) : tree.descendants node = [] := by
  rw [descendants, if_neg fun hc => Nat.not_lt.mpr hn (contains_iff.mp hc)]

theorem lt_size_of_mem_descendants (hm : node ∈ tree.descendants top) : top < tree.size := by
  refine Nat.lt_of_not_le fun hle => ?_
  rw [descendants_of_size_le hle] at hm
  exact List.not_mem_nil hm

/-! ## Lists that end -/

/-- Every way down ends exactly if all ways together do. -/
theorem endsBelow_iff : tree.EndsBelow node ↔ ∃ order, Unfolds tree.children [node] order := by
  constructor
  · intro h
    induction h with
    | intro node _ ih =>
      obtain ⟨order, ho⟩ := Unfolds.exists_of_forall ih
      exact ⟨_, ho.singleton⟩
  · rintro ⟨order, h⟩
    have key : ∀ {nodes order : List NodeId}, Unfolds tree.children nodes order →
        ∀ node ∈ nodes, tree.EndsBelow node := by
      intro nodes order h
      induction h with
      | nil => exact List.forall_mem_nil _
      | cons _ _ ihbelow ihafter => exact List.forall_mem_cons.mpr ⟨.intro _ ihbelow, ihafter⟩
    exact key h node List.mem_cons_self

namespace Closed

/-- The limit of the traversal is never reached. -/
theorem descendants_eq_of_unfolds (h : tree.Closed) (hn : node < tree.size) {order : List NodeId}
    (ho : Unfolds tree.children [node] order) : tree.descendants node = order := by
  have hlt : ∀ e ∈ order, e ∈ Finset.range tree.size :=
    ho.forall_mem (fun e he => by rw [List.mem_singleton.mp he]; exact Finset.mem_range.mpr hn)
      fun e _ c hc => Finset.mem_range.mpr (h.children hc)
  rw [descendants, if_pos (contains_iff.mpr hn)]
  exact ho.order_eq (fun e _ => length_children_le_childLinks tree e) _ hlt
    (Finset.card_range _).le

theorem unfolds_descendants (h : tree.Closed) (hn : node < tree.size) (hf : tree.EndsBelow node) :
    Unfolds tree.children [node] (tree.descendants node) := by
  obtain ⟨order, ho⟩ := endsBelow_iff.mp hf
  rw [h.descendants_eq_of_unfolds hn ho]
  exact ho

end Closed

/-! ## Linked trees -/

namespace Linked

theorem unfolds_descendants (h : tree.Linked) (hn : node < tree.size) :
    Unfolds tree.children [node] (tree.descendants node) :=
  h.closed.unfolds_descendants hn (h.acc node)

/-- A node comes first, then all its descendants child by child. -/
theorem descendants_eq (h : tree.Linked) (hn : node < tree.size) :
    tree.descendants node = node :: (tree.children node).flatMap tree.descendants :=
  (h.unfolds_descendants hn).unique (.singleton (.flatMap fun _ hc =>
    h.unfolds_descendants (child_lt (h.mem_children.mp hc))))

theorem mem_descendants_iff (h : tree.Linked) (ht : top < tree.size) :
    node ∈ tree.descendants top ↔ tree.Within node top := by
  induction top using h.induction with
  | step top ih =>
    rw [h.descendants_eq ht, List.mem_cons, List.mem_flatMap, within_iff, below_iff_child]
    refine or_congr_right (exists_congr fun child => ?_)
    rw [h.mem_children, and_comm]
    refine and_congr_left fun hc => ?_
    exact ih child (h.mem_children.mpr hc) (child_lt hc)

/-- The descendants of a node stand in one piece among those of its parent. -/
theorem descendants_infix_parent (h : tree.Linked) (hp : tree.parent? node = some parent) :
    tree.descendants node <:+: tree.descendants parent := by
  rw [h.descendants_eq (h.parent_lt hp)]
  exact (List.infix_flatMap_of_mem (h.mem_children.mpr hp) _).trans (List.suffix_cons ..).isInfix

theorem descendants_infix (h : tree.Linked) (hw : tree.Within node top) :
    tree.descendants node <:+: tree.descendants top := by
  induction hw with
  | refl => exact List.infix_refl _
  | tail _ hp ih => exact ih.trans (h.descendants_infix_parent hp)

theorem lt_of_mem_descendants (h : tree.Linked) (hm : node ∈ tree.descendants top) :
    node < tree.size := by
  have ht := lt_size_of_mem_descendants hm
  exact h.within_lt ht ((h.mem_descendants_iff ht).mp hm)

/-- The nodes within two children of one node are different ones. -/
theorem eq_of_within_children (h : tree.Linked) {a b : NodeId} (ha : tree.parent? a = some parent)
    (hb : tree.parent? b = some parent) (hwa : tree.Within node a) (hwb : tree.Within node b) :
    a = b := by
  have key : ∀ {a b : NodeId}, tree.parent? a = some parent → tree.parent? b = some parent →
      tree.Within a b → a = b := by
    intro a b ha hb hw
    rcases within_iff.mp hw with he | hlt
    · exact he
    · obtain ⟨above, hp, hw⟩ := below_iff_parent.mp hlt
      obtain rfl : parent = above := Option.some.inj (ha.symm.trans hp)
      exact absurd (hw.trans_below (.single hb)) (h.acyclic _)
  rcases hwa.total hwb with hw | hw
  · exact key ha hb hw
  · exact (key hb ha hw).symm

theorem nodup_descendants (h : tree.Linked) (node : NodeId) : (tree.descendants node).Nodup := by
  by_cases hn : node < tree.size
  · induction node using h.induction with
    | step node ih =>
      rw [h.descendants_eq hn]
      have hlt : ∀ child ∈ tree.children node, child < tree.size := fun child hc =>
        child_lt (h.mem_children.mp hc)
      refine List.nodup_cons.mpr ⟨fun hm => ?_, List.nodup_flatMap.mpr ⟨fun child hc => ?_, ?_⟩⟩
      · obtain ⟨child, hc, hm⟩ := List.mem_flatMap.mp hm
        rw [h.mem_descendants_iff (hlt child hc)] at hm
        exact h.acyclic node (below_iff_child.mpr ⟨child, hm, h.mem_children.mp hc⟩)
      · exact ih child hc (hlt child hc)
      · refine (h.nodup node).imp_of_mem fun {a b} ha hb hne x hxa hxb => hne ?_
        rw [h.mem_descendants_iff (hlt a ha)] at hxa
        rw [h.mem_descendants_iff (hlt b hb)] at hxb
        exact h.eq_of_within_children (h.mem_children.mp ha) (h.mem_children.mp hb) hxa hxb
  · rw [descendants_of_size_le (Nat.le_of_not_lt hn)]
    exact List.nodup_nil

end Linked

end DomSelect.Tree
