import DomSelect.Proofs.Tree.Effects
import Mathlib.Data.Fintype.EquivFin
import Mathlib.Logic.Relation

/-!
# Disciplined histories

`WellBuilt` trees come from the document alone by making nodes and by attaching nodes, where a node
that is attached has no parent yet and the new parent does not lie at or below it. In such a tree
the three records of the same links agree (`WellBuilt.linked`): the lists of children, the parents
and the next siblings. `Linked` is the invariant that carries this through any order of steps.

Chains of links are then followed to their ends: `linkedChildren_eq` for siblings and
`isDescendantOf_iff` for parents. `Linked.acc` is the induction from the leaves up.
-/

namespace DomSelect.Tree

/-! ## Chains of links -/

section Follow

variable {link : NodeId → Option NodeId} {count : Nat} {start : Option NodeId} {x y : NodeId}

@[simp] theorem follow_none (link : NodeId → Option NodeId) (count : Nat) :
    follow link count none = [] := by
  cases count <;> rfl

theorem length_follow_le (link : NodeId → Option NodeId) (count : Nat) (start : Option NodeId) :
    (follow link count start).length ≤ count := by
  induction count generalizing start with
  | zero => exact Nat.le_refl _
  | succ count ih =>
    cases start with
    | none => exact Nat.zero_le _
    | some id => exact Nat.succ_le_succ (ih (link id))

/-- A chain depends on the links of its own nodes alone. -/
theorem follow_congr {link' : NodeId → Option NodeId}
    (h : ∀ id ∈ follow link count start, link' id = link id) :
    follow link' count start = follow link count start := by
  induction count generalizing start with
  | zero => rfl
  | succ count ih =>
    cases start with
    | none => rfl
    | some id =>
      obtain ⟨hfirst, hrest⟩ := List.forall_mem_cons.mp h
      rw [follow, follow, hfirst, ih hrest]

theorem mem_follow_start (h : (follow link count (some x)).length < count) :
    x ∈ follow link count (some x) := by
  cases count with
  | zero => exact absurd h (Nat.not_lt_zero _)
  | succ count => exact List.mem_cons_self

/-- A chain that ends before its limit is closed under the link. -/
theorem mem_follow_link (h : (follow link count start).length < count)
    (hx : x ∈ follow link count start) (hy : link x = some y) : y ∈ follow link count start := by
  induction count generalizing start with
  | zero => exact absurd h (Nat.not_lt_zero _)
  | succ count ih =>
    cases start with
    | none => exact absurd hx List.not_mem_nil
    | some id =>
      have hlt : (follow link count (link id)).length < count := Nat.lt_of_succ_lt_succ h
      rcases List.mem_cons.mp hx with rfl | hx
      · rw [hy] at hlt
        refine List.mem_cons_of_mem _ ?_
        rw [hy]
        exact mem_follow_start hlt
      · exact List.mem_cons_of_mem _ (ih hlt hx)

theorem transGen_of_mem_follow (h : y ∈ follow link count (link x)) :
    Relation.TransGen (fun a b => link a = some b) x y := by
  induction count generalizing x with
  | zero => exact absurd h List.not_mem_nil
  | succ count ih =>
    cases hx : link x with
    | none => rw [hx] at h; exact absurd h List.not_mem_nil
    | some id =>
      rw [hx] at h
      rcases List.mem_cons.mp h with rfl | h
      · exact .single hx
      · exact .head hx (ih h)

/-- What comes later in a chain is reached from what comes earlier. -/
theorem pairwise_follow (link : NodeId → Option NodeId) (count : Nat) (start : Option NodeId) :
    (follow link count start).Pairwise (Relation.TransGen fun a b => link a = some b) := by
  induction count generalizing start with
  | zero => exact .nil
  | succ count ih =>
    cases start with
    | none => exact .nil
    | some id => exact .cons (fun _ h => transGen_of_mem_follow h) (ih _)

end Follow

/-! ## Lying below -/

variable {tree : Tree} {node top parent child : NodeId}

/-- A chain of parents leads from `node` to `top`. -/
def Below (tree : Tree) : NodeId → NodeId → Prop :=
  Relation.TransGen fun node parent => tree.parent? node = some parent

/-- `node` is `top` or lies below it. -/
def Within (tree : Tree) : NodeId → NodeId → Prop :=
  Relation.ReflTransGen fun node parent => tree.parent? node = some parent

theorem Within.refl (tree : Tree) (node : NodeId) : tree.Within node node :=
  Relation.ReflTransGen.refl

theorem Within.trans {a b c : NodeId} (h : tree.Within a b) (h' : tree.Within b c) :
    tree.Within a c := Relation.ReflTransGen.trans h h'

theorem Below.within (h : tree.Below node top) : tree.Within node top := h.to_reflTransGen

theorem Below.trans_within {a b c : NodeId} (h : tree.Below a b) (h' : tree.Within b c) :
    tree.Below a c := Relation.TransGen.trans_left h h'

theorem Within.trans_below {a b c : NodeId} (h : tree.Within a b) (h' : tree.Below b c) :
    tree.Below a c := Relation.TransGen.trans_right h h'

theorem within_iff : tree.Within node top ↔ node = top ∨ tree.Below node top := by
  rw [Within, Relation.reflTransGen_iff_eq_or_transGen]
  exact or_congr_left eq_comm

theorem below_iff_parent :
    tree.Below node top ↔ ∃ parent, tree.parent? node = some parent ∧ tree.Within parent top :=
  Relation.TransGen.head'_iff

/-- What lies below a node lies within one of those that hang from it. -/
theorem below_iff_child :
    tree.Below node top ↔ ∃ child, tree.Within node child ∧ tree.parent? child = some top :=
  Relation.TransGen.tail'_iff

/-- Two nodes above the same one are one within the other. -/
theorem Within.total {a b : NodeId} (ha : tree.Within node a) (hb : tree.Within node b) :
    tree.Within a b ∨ tree.Within b a :=
  Relation.ReflTransGen.total_of_right_unique
    (fun _ _ _ h h' => Option.some.inj (h.symm.trans h')) ha hb

theorem mem_ancestors (h : top ∈ tree.ancestors node) : tree.Below node top :=
  transGen_of_mem_follow h

/-! ## Trees whose records agree -/

/-- The lists of children, the parents and the next siblings record the same forest. -/
structure Linked (tree : Tree) : Prop where
  /-- A list of children holds the nodes with this parent. -/
  mem_children {parent child : NodeId} :
    child ∈ tree.children parent ↔ tree.parent? child = some parent
  /-- No child is listed twice. -/
  nodup (parent : NodeId) : (tree.children parent).Nodup
  /-- The next sibling is the next one in the list. -/
  nextSibling {parent child : NodeId} {before after : List NodeId} :
    tree.children parent = before ++ child :: after → tree.nextSibling? child = after.head?
  /-- A node without a parent has no next sibling. -/
  orphan {node : NodeId} : tree.parent? node = none → tree.nextSibling? node = none
  /-- No node lies below itself. -/
  acyclic (node : NodeId) : ¬ tree.Below node node

/-- Trees made by steps of which each one that attaches a node takes a node without a parent and a
parent that does not lie at or below that node. -/
inductive WellBuilt : Tree → Prop
  | initial : WellBuilt initial
  | alloc {tree : Tree} (h : WellBuilt tree) (content : Content) : WellBuilt (tree.alloc content)
  | append {tree after : Tree} {parent child : NodeId} (h : WellBuilt tree)
      (orphan : tree.parent? child = none) (ne : parent ≠ child)
      (outside : tree.isDescendantOf parent child = false)
      (attached : tree.append? parent child = some after) : WellBuilt after

namespace Linked

theorem parent_lt (h : tree.Linked) (hp : tree.parent? child = some parent) :
    parent < tree.size := by
  refine Nat.lt_of_not_le fun hle => ?_
  have := h.mem_children.mpr hp
  rw [children_of_size_le hle] at this
  exact List.not_mem_nil this

theorem child_lt (hp : tree.parent? child = some parent) : child < tree.size := by
  refine Nat.lt_of_not_le fun hle => ?_
  rw [parent?_of_size_le hle] at hp
  cases hp

theorem below_lt (h : tree.Linked) (hb : tree.Below node top) :
    node < tree.size ∧ top < tree.size := by
  obtain ⟨_, hn, _⟩ := below_iff_parent.mp hb
  obtain ⟨_, _, ht⟩ := below_iff_child.mp hb
  exact ⟨child_lt hn, h.parent_lt ht⟩

theorem within_lt (h : tree.Linked) (ht : top < tree.size) (hw : tree.Within node top) :
    node < tree.size := by
  rcases within_iff.mp hw with rfl | hb
  · exact ht
  · exact (h.below_lt hb).1

/-- A list of distinct nodes is no longer than the tree. -/
theorem length_le_size {nodes : List NodeId} (hn : nodes.Nodup)
    (hlt : ∀ node ∈ nodes, node < tree.size) : nodes.length ≤ tree.size := by
  have hs : nodes ⊆ List.range tree.size := fun node hm => List.mem_range.mpr (hlt node hm)
  have := (List.subperm_of_subset hn hs).length_le
  rwa [List.length_range] at this

theorem length_children_le (h : tree.Linked) (parent : NodeId) :
    (tree.children parent).length ≤ tree.size :=
  length_le_size (h.nodup parent) fun _ hc => child_lt (h.mem_children.mp hc)

theorem ne_of_below (h : tree.Linked) (hb : tree.Below node top) : node ≠ top :=
  fun he => h.acyclic node (he ▸ hb)

theorem within_antisymm (h : tree.Linked) {a b : NodeId} (ha : tree.Within a b)
    (hb : tree.Within b a) : a = b := by
  rcases within_iff.mp ha with he | hlt
  · exact he
  · exact absurd (hlt.trans_within hb) (h.acyclic a)

/-! ### Ends of chains -/

/-- The chain of parents of a node ends before it has as many members as the tree. -/
theorem length_ancestors_lt (h : tree.Linked) (hn : node < tree.size) :
    (tree.ancestors node).length < tree.size := by
  have hd : (node :: tree.ancestors node).Nodup := by
    refine List.nodup_cons.mpr ⟨fun hm => h.acyclic node (mem_ancestors hm), ?_⟩
    exact (pairwise_follow tree.parent? tree.size _).imp h.ne_of_below
  have hlt : ∀ x ∈ node :: tree.ancestors node, x < tree.size := by
    intro x hx
    rcases List.mem_cons.mp hx with rfl | hx
    · exact hn
    · exact (h.below_lt (mem_ancestors hx)).2
  exact length_le_size hd hlt

theorem mem_ancestors_iff (h : tree.Linked) : top ∈ tree.ancestors node ↔ tree.Below node top := by
  refine ⟨mem_ancestors, fun hb => ?_⟩
  have hlen := h.length_ancestors_lt (h.below_lt hb).1
  induction hb with
  | single hp =>
    unfold ancestors at hlen ⊢
    rw [hp] at hlen ⊢
    exact mem_follow_start hlen
  | tail _ hp ih => exact mem_follow_link hlen ih hp

/-- Climbing the parents decides what lies below what. -/
theorem isDescendantOf_iff (h : tree.Linked) :
    tree.isDescendantOf node top = true ↔ tree.Below node top := by
  rw [isDescendantOf, List.contains_iff_mem, h.mem_ancestors_iff]

/-- From a child on, the chain of siblings is the rest of the list. -/
theorem follow_nextSibling (h : tree.Linked) (before : List NodeId) {rest : List NodeId}
    {count : Nat} (hc : tree.children parent = before ++ rest) (hl : rest.length ≤ count) :
    follow tree.nextSibling? count rest.head? = rest := by
  induction rest generalizing before count with
  | nil => exact follow_none ..
  | cons child after ih =>
    cases count with
    | zero => exact absurd hl (Nat.not_succ_le_zero _)
    | succ count =>
      rw [List.head?_cons, follow, h.nextSibling hc,
        ih (before ++ [child]) (by rw [hc]; simp) (Nat.le_of_succ_le_succ hl)]

/-- The two views of the children of a node are the same. -/
theorem linkedChildren_eq (h : tree.Linked) (parent : NodeId) :
    tree.linkedChildren parent = tree.children parent := by
  rw [linkedChildren, firstChild?_eq_head?]
  exact h.follow_nextSibling [] rfl (h.length_children_le parent)

/-! ### Induction from the leaves up -/

theorem acc (h : tree.Linked) (node : NodeId) :
    Acc (fun child parent => child ∈ tree.children parent) node := by
  let below : Fin tree.size → Fin tree.size → Prop := fun a b => tree.Below a b
  have : IsTrans _ below := ⟨fun _ _ _ => Relation.TransGen.trans⟩
  have : Std.Irrefl below := ⟨fun a => h.acyclic a⟩
  -- a tree is finite, so no infinite way leads down from a node
  have wf : WellFounded below := Finite.wellFounded_of_trans_of_irrefl below
  have key : ∀ a : Fin tree.size,
      Acc (fun child parent => child ∈ tree.children parent) (a : NodeId) := by
    intro a
    induction a using wf.induction with
    | _ a ih =>
      refine Acc.intro _ fun child hc => ?_
      have hp := h.mem_children.mp hc
      exact ih ⟨child, child_lt hp⟩ (.single hp)
  by_cases hn : node < tree.size
  · exact key ⟨node, hn⟩
  · refine Acc.intro _ fun child hc => ?_
    rw [children_of_size_le (Nat.le_of_not_lt hn)] at hc
    exact absurd hc List.not_mem_nil

theorem induction {motive : NodeId → Prop} (h : tree.Linked)
    (step : ∀ node, (∀ child ∈ tree.children node, motive child) → motive node) (node : NodeId) :
    motive node := by
  induction h.acc node with
  | intro node _ ih => exact step node ih

/-! ### Preservation -/

theorem initial : Tree.initial.Linked where
  mem_children := by simp
  nodup _ := by simp
  nextSibling hc := by simp at hc
  orphan _ := nextSibling?_initial _
  acyclic node hb := by
    obtain ⟨_, hp, _⟩ := below_iff_parent.mp hb
    simp at hp

theorem alloc (h : tree.Linked) (content : Content) : (tree.alloc content).Linked where
  mem_children {parent child} := by
    rw [children_alloc, parent?_alloc]
    exact h.mem_children
  nodup parent := by
    rw [children_alloc]
    exact h.nodup parent
  nextSibling hc := by
    rw [children_alloc] at hc
    rw [nextSibling?_alloc]
    exact h.nextSibling hc
  orphan hp := by
    rw [parent?_alloc] at hp
    rw [nextSibling?_alloc]
    exact h.orphan hp
  acyclic node hb := by
    unfold Below at hb
    simp only [parent?_alloc] at hb
    exact h.acyclic node hb

/-- A chain of parents in the new tree is an old one, or it passes from `child` to `parent`. -/
theorem below_append (hc : child < tree.size) {a b : NodeId}
    (hb : (tree.append parent child).Below a b) :
    tree.Below a b ∨ tree.Within a child ∧ tree.Within parent b := by
  induction hb with
  | single hp =>
    rw [parent?_append hc] at hp
    split at hp
    · next he => subst he; cases hp; exact .inr ⟨Within.refl .., Within.refl ..⟩
    · exact .inl (.single hp)
  | tail _ hp ih =>
    rw [parent?_append hc] at hp
    split at hp
    · next he =>
      subst he
      cases hp
      rcases ih with hold | ⟨ha, _⟩
      · exact .inr ⟨hold.within, Within.refl ..⟩
      · exact .inr ⟨ha, Within.refl ..⟩
    · rcases ih with hold | ⟨ha, hb⟩
      · exact .inl (hold.tail hp)
      · exact .inr ⟨ha, hb.tail hp⟩

theorem append (h : tree.Linked) (hp : parent < tree.size) (hc : child < tree.size)
    (horphan : tree.parent? child = none) (hout : ¬ tree.Within parent child) :
    (tree.append parent child).Linked where
  mem_children {top node} := by
    rw [children_append hp, parent?_append hc]
    by_cases hn : child = node
    · subst hn
      have hnot : child ∉ tree.children top := fun hm => by
        rw [h.mem_children, horphan] at hm
        cases hm
      by_cases ht : parent = top <;> simp [ht, hnot]
    · have hn' : node ≠ child := fun he => hn he.symm
      rw [if_neg hn, ← h.mem_children]
      by_cases ht : parent = top <;> simp [ht, hn']
  nodup top := by
    rw [children_append hp]
    split
    · refine List.Nodup.append (h.nodup top) (List.nodup_singleton child) ?_
      intro node hm hs
      rw [List.mem_singleton.mp hs, h.mem_children, horphan] at hm
      cases hm
    · exact h.nodup top
  nextSibling {top node before after} hsplit := by
    rw [children_append hp] at hsplit
    rw [nextSibling?_append, lastChild?_eq_getLast?]
    split at hsplit
    · next ht =>
      subst ht
      rcases List.eq_nil_or_concat after with rfl | ⟨front, last, rfl⟩
      · -- the node is the one attached: it has had no parent and no next sibling
        obtain ⟨hbefore, hnode⟩ := List.append_inj' hsplit rfl
        obtain rfl : child = node := List.singleton_inj.mp hnode
        rw [if_neg, h.orphan horphan]
        · rfl
        · rintro ⟨hl, _⟩
          have := h.mem_children.mp (List.mem_of_getLast? hl)
          rw [horphan] at this
          cases this
      · rw [List.concat_eq_append, ← List.cons_append, ← List.append_assoc] at hsplit
        obtain ⟨hold, hlast⟩ := List.append_inj' hsplit rfl
        obtain rfl : child = last := List.singleton_inj.mp hlast
        rw [hold]
        cases front with
        | nil =>
          have hm : tree.parent? node = some parent := h.mem_children.mp (by simp [hold])
          rw [if_pos ⟨by simp, child_lt hm⟩]
          rfl
        | cons next front =>
          rw [if_neg, h.nextSibling hold]
          · simp
          · -- the last child comes after the node, and no child is listed twice
            rintro ⟨hl, _⟩
            have hd := h.nodup parent
            rw [hold] at hd
            have hm : node ∈ next :: front := by
              rw [List.getLast?_append_cons, List.getLast?_cons_cons] at hl
              exact List.mem_of_getLast? hl
            exact (List.nodup_cons.mp (List.nodup_append.mp hd).2.1).1 hm
    · next ht =>
      rw [if_neg, h.nextSibling hsplit]
      rintro ⟨hl, _⟩
      have hm := h.mem_children.mp (List.mem_of_getLast? hl)
      have hm' : tree.parent? node = some top := h.mem_children.mp (by simp [hsplit])
      exact ht (Option.some.inj (hm.symm.trans hm'))
  orphan {node} ho := by
    rw [parent?_append hc] at ho
    split at ho
    · cases ho
    · rw [nextSibling?_append, lastChild?_eq_getLast?, if_neg, h.orphan ho]
      rintro ⟨hl, _⟩
      have := h.mem_children.mp (List.mem_of_getLast? hl)
      rw [ho] at this
      cases this
  acyclic node hb := by
    rcases below_append hc hb with hold | ⟨hchild, hparent⟩
    · exact h.acyclic node hold
    · exact hout (hparent.trans hchild)

end Linked

theorem WellBuilt.linked (h : WellBuilt tree) : tree.Linked := by
  induction h with
  | initial => exact .initial
  | alloc _ content ih => exact ih.alloc content
  | append _ orphan ne outside attached ih =>
    obtain ⟨hp, hc, rfl⟩ := append?_eq_some_iff.mp attached
    refine ih.append hp hc orphan fun hw => ?_
    rcases within_iff.mp hw with he | hb
    · exact ne he
    · rw [ih.isDescendantOf_iff.mpr hb] at outside
      cases outside

/-- A new child of any node keeps the discipline: nothing hangs from a new node yet. -/
theorem WellBuilt.addChild (h : WellBuilt tree) (hp : parent < tree.size) (content : Content) :
    WellBuilt (tree.addChild parent content) := by
  refine .append (h.alloc content) ?_ (Nat.ne_of_lt hp) ?_ ?_
  · rw [parent?_alloc]
    exact parent?_of_size_le (Nat.le_refl _)
  · rw [Bool.eq_false_iff, ne_eq, (h.alloc content).linked.isDescendantOf_iff]
    intro hb
    obtain ⟨child, -, hc⟩ := below_iff_child.mp hb
    rw [parent?_alloc] at hc
    exact Nat.lt_irrefl _ (h.linked.parent_lt hc)
  · rw [append?_eq_some_iff, size_alloc]
    exact ⟨Nat.lt_succ_of_lt hp, Nat.lt_succ_self _, rfl⟩

end DomSelect.Tree
