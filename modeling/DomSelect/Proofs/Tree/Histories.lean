import DomSelect.Proofs.Tree.Links
import DomSelect.Proofs.Tree.Unfolding

/-!
# Any history

`Built` trees come from the document alone by any steps at all: a node may be attached twice, to two
parents, or below itself. The records of the links then need not agree, but each link still leads to
a node of the tree (`Built.closed`).

`FiniteFrom` says that no links lead on for ever, from a node to its first child and to its next
sibling and from these again. Where it holds, the children of a node by the chain of siblings are
all nodes of this chain (`Closed.leadsThrough_linkedChildren`).
-/

namespace DomSelect

namespace Tree

open DomSelect.Preorder (Unfolds)

variable {tree : Tree} {node parent child : NodeId} {start : Option NodeId}
  {nodes : List NodeId}

/-! ## Definitions -/

/-- Trees made by any steps that can be done. -/
inductive Built : Tree → Prop
  | initial : Built initial
  | alloc {tree : Tree} (h : Built tree) (content : Content) : Built (tree.alloc content)
  | append {tree after : Tree} {parent child : NodeId} (h : Built tree)
      (attached : tree.append? parent child = some after) : Built after

/-- Every link leads to a node of the tree. -/
structure Closed (tree : Tree) : Prop where
  children {parent child : NodeId} : child ∈ tree.children parent → child < tree.size
  parent {node above : NodeId} : tree.parent? node = some above → above < tree.size
  nextSibling {node next : NodeId} : tree.nextSibling? node = some next → next < tree.size

/-- Whoever goes from here to first children and to next siblings comes to an end on every way. -/
inductive FiniteFrom (tree : Tree) : Option NodeId → Prop
  | none : FiniteFrom tree none
  | some {node : NodeId} (below : FiniteFrom tree (tree.firstChild? node))
      (later : FiniteFrom tree (tree.nextSibling? node)) : FiniteFrom tree (some node)

/-- `node` is `top` or is met on a way down from it, by the chains of siblings. -/
def LinkedWithin (tree : Tree) (node top : NodeId) : Prop :=
  Relation.ReflTransGen (fun above child => child ∈ tree.linkedChildren above) top node

/-! ## Links stay in the tree -/

namespace Closed

theorem initial : Tree.initial.Closed where
  children hm := by simp at hm
  parent hp := by simp at hp
  nextSibling hn := by simp at hn

theorem alloc (h : tree.Closed) (content : Content) : (tree.alloc content).Closed where
  children hm := by
    rw [children_alloc] at hm
    rw [size_alloc]
    exact Nat.lt_succ_of_lt (h.children hm)
  parent hp := by
    rw [parent?_alloc] at hp
    rw [size_alloc]
    exact Nat.lt_succ_of_lt (h.parent hp)
  nextSibling hn := by
    rw [nextSibling?_alloc] at hn
    rw [size_alloc]
    exact Nat.lt_succ_of_lt (h.nextSibling hn)

theorem append (h : tree.Closed) (hp : parent < tree.size) (hc : child < tree.size) :
    (tree.append parent child).Closed where
  children {top node} hm := by
    rw [children_append hp] at hm
    rw [size_append]
    split at hm
    · rcases List.mem_append.mp hm with hold | hnew
      · exact h.children hold
      · rwa [List.mem_singleton.mp hnew]
    · exact h.children hm
  parent hm := by
    rw [parent?_append hc] at hm
    rw [size_append]
    split at hm
    · rwa [← Option.some.inj hm]
    · exact h.parent hm
  nextSibling hm := by
    rw [nextSibling?_append] at hm
    rw [size_append]
    split at hm
    · rwa [← Option.some.inj hm]
    · exact h.nextSibling hm

theorem firstChild (h : tree.Closed) (hf : tree.firstChild? parent = some child) :
    child < tree.size := by
  rw [firstChild?_eq_head?] at hf
  exact h.children (List.mem_of_head? hf)

theorem lt_of_mem_linkedChildren (h : tree.Closed) (hm : child ∈ tree.linkedChildren parent) :
    child < tree.size := by
  have key : ∀ (count : Nat) (start : Option NodeId), (∀ id, start = some id → id < tree.size) →
      ∀ id ∈ follow tree.nextSibling? count start, id < tree.size := by
    intro count
    induction count with
    | zero => exact fun _ _ id hid => absurd hid List.not_mem_nil
    | succ count ih =>
      intro start hstart
      cases start with
      | none => exact fun id hid => absurd hid List.not_mem_nil
      | some first =>
        refine List.forall_mem_cons.mpr ⟨hstart first rfl, ih _ fun next hn => ?_⟩
        exact h.nextSibling hn
  exact key _ _ (fun _ hf => h.firstChild hf) child hm

end Closed

theorem Built.closed (h : Built tree) : tree.Closed := by
  induction h with
  | initial => exact .initial
  | alloc _ content ih => exact ih.alloc content
  | append _ attached ih =>
    obtain ⟨hp, hc, rfl⟩ := append?_eq_some_iff.mp attached
    exact ih.append hp hc

theorem Linked.closed (h : tree.Linked) : tree.Closed where
  children hm := Linked.child_lt (h.mem_children.mp hm)
  parent hp := h.parent_lt hp
  nextSibling {node next} hn := by
    cases hp : tree.parent? node with
    | none =>
      rw [h.orphan hp] at hn
      cases hn
    | some parent =>
      obtain ⟨before, later, hsplit⟩ := List.append_of_mem (h.mem_children.mpr hp)
      rw [h.nextSibling hsplit] at hn
      refine Linked.child_lt (h.mem_children.mp (?_ : next ∈ tree.children parent))
      rw [hsplit]
      exact List.mem_append_right _ (List.mem_cons_of_mem _ (List.mem_of_head? hn))

/-! ## Chains that end -/

/-- The chain of next siblings from here on ends, and below none of its nodes anything goes on for
ever. -/
theorem FiniteFrom.exists_leadsThrough (h : tree.FiniteFrom start) :
    ∃ nodes, LeadsThrough tree.nextSibling? start nodes ∧
      ∀ node ∈ nodes, tree.FiniteFrom (tree.firstChild? node) := by
  induction h with
  | none => exact ⟨[], .ends, List.forall_mem_nil _⟩
  | some below _ _ ih =>
    obtain ⟨nodes, hlead, hnodes⟩ := ih
    exact ⟨_, .passes hlead, List.forall_mem_cons.mpr ⟨below, hnodes⟩⟩

theorem LeadsThrough.finiteFrom (h : LeadsThrough tree.nextSibling? start nodes)
    (hb : ∀ node ∈ nodes, tree.FiniteFrom (tree.firstChild? node)) : tree.FiniteFrom start := by
  induction h with
  | ends => exact .none
  | passes _ ih =>
    obtain ⟨hfirst, hrest⟩ := List.forall_mem_cons.mp hb
    exact .some hfirst (ih hrest)

/-- In a tree whose records agree nothing goes on for ever. -/
theorem Linked.finiteFrom (h : tree.Linked) (node : NodeId) :
    tree.FiniteFrom (tree.firstChild? node) := by
  induction node using h.induction with
  | step node ih => exact (h.leadsThrough_children node).finiteFrom ih

namespace Closed

/-- A chain of siblings that ends is one of distinct nodes of the tree, so it is followed up to its
end. -/
theorem leadsThrough_linkedChildren (h : tree.Closed)
    (hf : tree.FiniteFrom (tree.firstChild? node)) :
    LeadsThrough tree.nextSibling? (tree.firstChild? node) (tree.linkedChildren node) := by
  obtain ⟨nodes, hlead, -⟩ := hf.exists_leadsThrough
  have hlt : ∀ id ∈ nodes, id < tree.size :=
    hlead.forall_mem (fun _ hfirst => h.firstChild hfirst) fun _ _ _ hn => h.nextSibling hn
  have hlen := Linked.length_le_size hlead.nodup hlt
  rw [linkedChildren, hlead.follow_eq hlen]
  exact hlead

theorem finiteFrom_of_mem_linkedChildren (h : tree.Closed)
    (hf : tree.FiniteFrom (tree.firstChild? node)) (hc : child ∈ tree.linkedChildren node) :
    tree.FiniteFrom (tree.firstChild? child) := by
  obtain ⟨nodes, hlead, hnodes⟩ := hf.exists_leadsThrough
  rw [(h.leadsThrough_linkedChildren hf).unique hlead] at hc
  exact hnodes child hc

theorem exists_unfolds (h : tree.Closed) (hf : tree.FiniteFrom start)
    (hlead : LeadsThrough tree.nextSibling? start nodes) :
    ∃ order, Unfolds tree.linkedChildren nodes order := by
  induction hf generalizing nodes with
  | none =>
    cases hlead
    exact ⟨[], .nil⟩
  | some below _ ihbelow ihlater =>
    cases hlead with
    | passes hlead =>
      obtain ⟨order, ho⟩ := ihbelow (h.leadsThrough_linkedChildren below)
      obtain ⟨later, hlater⟩ := ihlater hlead
      exact ⟨_, .cons ho hlater⟩

/-- The children of a node by the chain of siblings unfold, and the node is not met again below. -/
theorem exists_unfolds_below (h : tree.Closed) (hf : tree.FiniteFrom (tree.firstChild? node)) :
    ∃ below, Unfolds tree.linkedChildren (tree.linkedChildren node) below ∧ node ∉ below := by
  obtain ⟨below, hb⟩ := h.exists_unfolds hf (h.leadsThrough_linkedChildren hf)
  exact ⟨below, hb, hb.not_mem_below⟩

end Closed

end Tree

/-- A paragraph and a list in a division; then the paragraph is attached to the document as well. -/
def sharedParagraph : Tree :=
  (((Tree.initial.addChild 0 (.element ⟨"div", []⟩)).addChild 1 (.element ⟨"p", []⟩)).addChild 1
    (.element ⟨"ul", []⟩)).append 0 2

theorem built_sharedParagraph : sharedParagraph.Built := by
  have h1 := @Tree.Built.append _ _ 0 1 (Tree.Built.initial.alloc (.element ⟨"div", []⟩)) rfl
  have h2 := @Tree.Built.append _ _ 1 2 (h1.alloc (.element ⟨"p", []⟩)) rfl
  have h3 := @Tree.Built.append _ _ 1 3 (h2.alloc (.element ⟨"ul", []⟩)) rfl
  exact @Tree.Built.append _ _ 0 2 h3 rfl

end DomSelect
