import DomSelect.Proofs.Query.Walking
import DomSelect.Proofs.Tree.Ancestry
import DomSelect.Proofs.Tree.Outlines

/-!
# Loops over a tree come to an end

Whoever walks a tree, lists descendants, climbs along parents or writes an outline follows links
that could lead round in circles. After a disciplined history they do not, and the size of the tree
bounds each of these loops (`WellBuilt.loops_end`).

Below a node the children unfold to a list without repetitions (`Linked.exists_unfolds`). The
entries of a walk stand for nodes of this list, and there is no more than one for each
(`Walk.exists_unfolds`). A loop with a stack takes as many rounds as there are entries to be visited
(`Unfolds.steps_eq`).
-/

namespace DomSelect

open DomSelect.Preorder (Traversal Unfolds)

variable {tree : Tree} {terms : List Term}

/-! ## Loops -/

/-- The loop of a walk after a number of rounds, each of which takes one entry from the stack. -/
def Walk.rounds (tree : Tree) (terms : List Term) (start : NodeId) (count : Nat) :
    Traversal Walk.Entry :=
  Traversal.steps (Walk.expand tree terms) count ⟨[⟨start, 0⟩], []⟩

namespace Tree

/-- The listing of descendants after a number of rounds. -/
def rounds (tree : Tree) (id : NodeId) (count : Nat) : Traversal NodeId :=
  Traversal.steps tree.children count ⟨if tree.contains id then [id] else [], []⟩

/-- The climb in search of `top`, with the nodes to which a link to a parent led, and whether `top`
is one of them. -/
inductive Climbs (tree : Tree) (top : NodeId) : Option NodeId → List NodeId → Bool → Prop
  | ends : Climbs tree top none [] false
  | finds : Climbs tree top (some top) [top] true
  | passes {node : NodeId} {met : List NodeId} {found : Bool} (hne : node ≠ top)
      (h : Climbs tree top (tree.parent? node) met found) :
      Climbs tree top (some node) (node :: met) found

/-! ## Climbing -/

theorem exists_climbs {start : Option NodeId} {way : List NodeId}
    (h : LeadsThrough tree.parent? start way) (top : NodeId) :
    ∃ met, Climbs tree top start met (way.contains top) ∧ met.length ≤ way.length := by
  induction h with
  | ends => exact ⟨[], .ends, Nat.le_refl _⟩
  | @passes node rest h ih =>
    rw [List.contains_cons]
    by_cases hn : node = top
    · subst hn
      rw [BEq.rfl, Bool.true_or]
      exact ⟨[node], .finds, Nat.le_add_left ..⟩
    · obtain ⟨met, hclimbs, hle⟩ := ih
      rw [beq_false_of_ne fun heq => hn heq.symm, Bool.false_or]
      exact ⟨node :: met, .passes hn hclimbs, Nat.succ_le_succ hle⟩

namespace Linked

/-- Where a climb ends, fewer links have been followed than there are nodes. -/
theorem exists_climbs_isDescendantOf (h : tree.Linked) (node top : NodeId) :
    ∃ met, Climbs tree top (tree.parent? node) met (tree.isDescendantOf node top) ∧
      met.length ≤ tree.size - 1 := by
  by_cases hn : node < tree.size
  · have hlt := h.length_ancestors_lt hn
    obtain ⟨met, hclimbs, hle⟩ := exists_climbs (leadsThrough_follow hlt) top
    exact ⟨met, hclimbs, by unfold ancestors at hlt; omega⟩
  · have hp := parent?_of_size_le (Nat.le_of_not_lt hn)
    have hno : tree.isDescendantOf node top = false := by
      rw [isDescendantOf, ancestors, hp, follow_none]
      rfl
    rw [hp, hno]
    exact ⟨[], .ends, Nat.zero_le _⟩

/-! ## Stacks -/

theorem length_descendants_le (h : tree.Linked) (id : NodeId) :
    (tree.descendants id).length ≤ tree.size :=
  length_le_size (h.nodup_descendants id) fun _ hm => h.lt_of_mem_descendants hm

/-- Below any number, that of a node or not, nothing is met twice. -/
theorem exists_unfolds (h : tree.Linked) (hpos : 0 < tree.size) (node : NodeId) :
    ∃ order, Unfolds tree.children [node] order ∧ order.Nodup ∧ order.length ≤ tree.size := by
  by_cases hn : node < tree.size
  · exact ⟨_, h.unfolds_descendants hn, h.nodup_descendants node, h.length_descendants_le node⟩
  · have hbelow : Unfolds tree.children (tree.children node) [] := by
      rw [children_of_size_le (Nat.le_of_not_lt hn)]
      exact .nil
    exact ⟨[node], hbelow.singleton, List.nodup_singleton _, hpos⟩

theorem rounds_size (h : tree.Linked) (id : NodeId) :
    tree.rounds id tree.size = ⟨[], (tree.descendants id).reverse⟩ := by
  unfold rounds
  by_cases hid : id < tree.size
  · rw [if_pos (contains_iff.mpr hid)]
    exact (h.unfolds_descendants hid).steps_eq (h.length_descendants_le id)
  · rw [if_neg fun hc => hid (contains_iff.mp hc), Traversal.steps_of_done rfl,
      descendants_of_size_le (Nat.le_of_not_lt hid)]
    rfl

/-! ## Calls -/

/-- The calls that write an outline lie in one another less deep than there are nodes. -/
theorem exists_writes (h : tree.Linked) (id level : Nat) :
    ∃ entries text, Outline.Writes tree level [id] entries text ∧
      (level = 0 → text = tree.outline id) ∧
      ∀ entry ∈ entries, entry.level < level + tree.size := by
  by_cases hid : id < tree.size
  · have hids : ∀ node ∈ [id], node < tree.size := List.forall_mem_singleton.mpr hid
    obtain ⟨entries, text, hw⟩ := Outline.exists_writes (h.unfolds_descendants hid) level
    have hlevel := hw.level_lt h.closed _ (hw.mem_range h.closed hids)
    rw [Finset.card_range] at hlevel
    refine ⟨entries, text, hw, ?_, hlevel⟩
    rintro rfl
    exact (hw.outline_eq h.closed hid).symm
  · have hle := Nat.le_of_not_lt hid
    refine ⟨[], "", .absent (content?_eq_none_iff.mpr hle) (.nil level), fun _ => ?_, ?_⟩
    · exact (outline_of_size_le hle).symm
    · exact List.forall_mem_nil _

end Linked

end Tree

/-! ## Walks -/

namespace Walk

/-- The entries of a walk stand for different nodes. -/
theorem exists_unfolds (h : tree.Linked) (hpos : 0 < tree.size) (terms : List Term)
    (start : NodeId) : ∃ order, Unfolds (expand tree terms) [⟨start, 0⟩] order ∧
      (order.map (·.node)).Nodup ∧ order.length ≤ tree.size := by
  obtain ⟨nodes, hnodes, hnodup, hle⟩ := h.exists_unfolds hpos start
  have hexpand : ∀ entry, expand tree terms entry = [] ∨
      (expand tree terms entry).map (·.node) = tree.children entry.node := by
    intro entry
    rw [← h.linkedChildren_eq]
    exact map_node_expand tree terms entry
  obtain ⟨order, ho, hsub⟩ := hnodes.exists_lift Entry.node hexpand [⟨start, 0⟩] rfl
  refine ⟨order, ho, hnodup.sublist hsub, ?_⟩
  rw [← List.length_map]
  exact hsub.length_le.trans hle

/-- What a walk reports is found among the entries that its loop takes from the stack. -/
theorem walk_eq_of_unfolds (hc : tree.Closed) {start : NodeId} {order : List Entry}
    (h : Unfolds (expand tree terms) [⟨start, 0⟩] order) (mode : MatchMode) :
    walk tree start terms mode = (order.filter (reports tree terms mode)).map (·.node) := by
  cases terms with
  | nil =>
    have hnone : order.filter (reports tree [] mode) = [] := List.filter_false order
    rw [walk_nil, hnone, List.map_nil]
  | cons term rest =>
    have hp : 0 < (term :: rest).length := Nat.succ_pos _
    rw [walk_eq_reportFrom, reportFrom,
      visitsFrom_eq_of_unfolds h (mem_entries_of_unfolds hc h hp)]

theorem nodup_rounds (h : tree.Linked) (hpos : 0 < tree.size) (terms : List Term)
    (start : NodeId) (count : Nat) :
    ((rounds tree terms start count).visited.map (·.node)).Nodup := by
  obtain ⟨order, ho, hnodup, -⟩ := exists_unfolds h hpos terms start
  rw [rounds, ho.visited_steps_eq, List.map_reverse, List.nodup_reverse, List.map_take]
  exact hnodup.sublist (List.take_sublist ..)

/-- After a round for each node at most, a walk is over, and has found what it reports. -/
theorem exists_rounds_size (h : tree.Linked) (hpos : 0 < tree.size) (terms : List Term)
    (start : NodeId) : ∃ order : List Entry, order.length ≤ tree.size ∧
      rounds tree terms start tree.size = ⟨[], order.reverse⟩ ∧
      ∀ mode, walk tree start terms mode =
        (order.filter (reports tree terms mode)).map (·.node) := by
  obtain ⟨order, ho, -, hle⟩ := exists_unfolds h hpos terms start
  exact ⟨order, hle, ho.steps_eq hle, walk_eq_of_unfolds h.closed ho⟩

end Walk

/-! ## All loops -/

namespace Tree

/-- **Loops over a tree come to an end.** In a tree with a disciplined history, from any node on: a
walk takes no node from its stack twice, whatever the terms are, and is over after as many rounds as
there are nodes; the chain of siblings from a first child on ends within the number of nodes, and so
does the listing of descendants; a climb follows fewer links than there are nodes; and the calls
that write an outline end, and lie in one another less deep than that. -/
theorem WellBuilt.loops_end (h : tree.WellBuilt) :
    (∀ start terms,
      (∀ count, ((Walk.rounds tree terms start count).visited.map (·.node)).Nodup) ∧
      ∃ order : List Walk.Entry, order.length ≤ tree.size ∧
        Walk.rounds tree terms start tree.size = ⟨[], order.reverse⟩ ∧
        ∀ mode, walk tree start terms mode =
          (order.filter (Walk.reports tree terms mode)).map (·.node)) ∧
    (∀ node, LeadsThrough tree.nextSibling? (tree.firstChild? node) (tree.linkedChildren node) ∧
      (tree.linkedChildren node).length ≤ tree.size) ∧
    (∀ id, tree.rounds id tree.size = ⟨[], (tree.descendants id).reverse⟩ ∧
      (tree.descendants id).length ≤ tree.size) ∧
    (∀ node top, ∃ met, Climbs tree top (tree.parent? node) met (tree.isDescendantOf node top) ∧
      met.length ≤ tree.size - 1) ∧
    ∀ id level, ∃ entries text, Outline.Writes tree level [id] entries text ∧
      (level = 0 → text = tree.outline id) ∧
      ∀ entry ∈ entries, entry.level < level + tree.size := by
  have hl := h.linked
  have hpos : 0 < tree.size := h.size_pos
  refine ⟨fun start terms => ?_, fun node => ?_, fun id => ?_, ?_, ?_⟩
  · exact ⟨Walk.nodup_rounds hl hpos terms start, Walk.exists_rounds_size hl hpos terms start⟩
  · rw [hl.linkedChildren_eq]
    exact ⟨hl.leadsThrough_children node, hl.length_children_le node⟩
  · exact ⟨hl.rounds_size id, hl.length_descendants_le id⟩
  · exact hl.exists_climbs_isDescendantOf
  · exact hl.exists_writes

theorem loops_end_lateDivision :
    lateDivision.WellBuilt ∧ lateDivision.size = 4 ∧
      lateDivision.rounds 0 4 = ⟨[], [2, 1, 3, 0]⟩ ∧
      (∀ terms, (Walk.rounds lateDivision terms 0 4).pending = []) ∧
      LeadsThrough lateDivision.nextSibling? (some 3) [3, 1] ∧
      (∃ met, Climbs lateDivision 0 (some 1) met true ∧ met.length ≤ 3) ∧
      ∃ entries, Outline.Writes lateDivision 0 [0] entries
        "Document\n  <div>\n  <div>\n    <p>\n" ∧ ∀ entry ∈ entries, entry.level < 4 := by
  obtain ⟨hwalk, hsiblings, hlisting, hclimb, houtline⟩ := wellBuilt_lateDivision.loops_end
  refine ⟨wellBuilt_lateDivision, rfl, (hlisting 0).1, fun terms => ?_, (hsiblings 0).1,
    hclimb 2 0, ?_⟩
  · obtain ⟨order, -, hrounds, -⟩ := (hwalk 0 terms).2
    exact congrArg Traversal.pending hrounds
  · obtain ⟨entries, text, hwrites, htext, hlevel⟩ := houtline 0 0
    have hlines : lateDivision.outline 0 = "Document\n  <div>\n  <div>\n    <p>\n" := by decide
    rw [htext rfl, hlines] at hwrites
    rw [Nat.zero_add] at hlevel
    exact ⟨entries, hwrites, hlevel⟩

end Tree

end DomSelect
