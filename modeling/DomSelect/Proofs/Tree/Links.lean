import DomSelect.Proofs.Tree.WellBuilt

/-!
# The three records of the links

A tree stores its shape three times: as parents, as lists of children, and as next siblings. After
a disciplined history they tell the same (`WellBuilt.links_agree`). `LeadsThrough` says what a
reader meets who follows one of the links to its end, with no limit on the number of steps.
-/

namespace DomSelect.Tree

variable {link : NodeId → Option NodeId} {start : Option NodeId} {nodes before : List NodeId}
  {tree : Tree} {node last parent child : NodeId}

/-! ## Following a link to its end -/

/-- From `start` on, the link leads through exactly these nodes and then ends. -/
inductive LeadsThrough (link : NodeId → Option NodeId) : Option NodeId → List NodeId → Prop
  | ends : LeadsThrough link none []
  | passes {node : NodeId} {rest : List NodeId} (h : LeadsThrough link (link node) rest) :
      LeadsThrough link (some node) (node :: rest)

namespace LeadsThrough

/-- There is one way only. -/
theorem unique (h : LeadsThrough link start nodes) {others : List NodeId}
    (h' : LeadsThrough link start others) : nodes = others := by
  induction h generalizing others with
  | ends =>
    cases h'
    rfl
  | passes _ ih =>
    cases h' with
    | passes h' => rw [ih h']

/-- The last node has no successor. -/
theorem link_last (h : LeadsThrough link start (before ++ [last])) : link last = none := by
  induction before generalizing start with
  | nil =>
    cases h with
    | passes h =>
      generalize link last = next at h
      cases h
      rfl
  | cons first before ih =>
    cases h with
    | passes h => exact ih h

theorem forall_mem {motive : NodeId → Prop} (h : LeadsThrough link start nodes)
    (hstart : ∀ id, start = some id → motive id)
    (hstep : ∀ id, motive id → ∀ next, link id = some next → motive next) :
    ∀ id ∈ nodes, motive id := by
  induction h with
  | ends => exact List.forall_mem_nil _
  | passes _ ih =>
    have hfirst := hstart _ rfl
    exact List.forall_mem_cons.mpr ⟨hfirst, ih (hstep _ hfirst)⟩

/-- From any node on the way the rest of the way is left. -/
theorem exists_of_mem (h : LeadsThrough link start nodes) (hn : node ∈ nodes) :
    ∃ rest, LeadsThrough link (some node) rest ∧ rest.length ≤ nodes.length := by
  induction h with
  | ends => exact absurd hn List.not_mem_nil
  | @passes first rest h ih =>
    rcases List.mem_cons.mp hn with rfl | hn
    · exact ⟨_, .passes h, Nat.le_refl _⟩
    · obtain ⟨left, hleft, hlen⟩ := ih hn
      exact ⟨left, hleft, Nat.le_succ_of_le hlen⟩

/-- A way that ends passes no node twice. -/
theorem nodup (h : LeadsThrough link start nodes) : nodes.Nodup := by
  induction h with
  | ends => exact List.nodup_nil
  | @passes first rest h ih =>
    refine List.nodup_cons.mpr ⟨fun hm => ?_, ih⟩
    obtain ⟨left, hleft, hlen⟩ := h.exists_of_mem hm
    rw [hleft.unique (.passes h), List.length_cons] at hlen
    omega

theorem follow_eq (h : LeadsThrough link start nodes) {count : Nat}
    (hl : nodes.length ≤ count) : follow link count start = nodes := by
  induction h generalizing count with
  | ends => exact follow_none ..
  | passes _ ih =>
    cases count with
    | zero => exact absurd hl (Nat.not_succ_le_zero _)
    | succ count => exact congrArg _ (ih (Nat.le_of_succ_le_succ hl))

end LeadsThrough

/-- A chain that is shorter than its limit is complete. -/
theorem leadsThrough_follow {count : Nat} (h : (follow link count start).length < count) :
    LeadsThrough link start (follow link count start) := by
  induction count generalizing start with
  | zero => exact absurd h (Nat.not_lt_zero _)
  | succ count ih =>
    cases start with
    | none => exact .ends
    | some id => exact .passes (ih (Nat.lt_of_succ_lt_succ h))

/-! ## Chains of a linked tree -/

namespace Linked

/-- The siblings from the first child on are the children. -/
theorem leadsThrough_children (h : tree.Linked) (parent : NodeId) :
    LeadsThrough tree.nextSibling? (tree.firstChild? parent) (tree.children parent) := by
  have key : ∀ before rest, tree.children parent = before ++ rest →
      LeadsThrough tree.nextSibling? rest.head? rest := by
    intro before rest hc
    induction rest generalizing before with
    | nil => exact .ends
    | cons child after ih =>
      refine .passes ?_
      rw [h.nextSibling hc]
      exact ih (before ++ [child]) (by rw [hc, List.append_assoc]; rfl)
  rw [firstChild?_eq_head?]
  exact key [] _ rfl

theorem leadsThrough_ancestors (h : tree.Linked) (hn : node < tree.size) :
    LeadsThrough tree.parent? (some node) (node :: tree.ancestors node) :=
  .passes (leadsThrough_follow (h.length_ancestors_lt hn))

end Linked

/-- **The links agree.** In a tree with a disciplined history the children of a node are those whose
parent it is, each listed once; the siblings from its first child on are its children, in order; and
on the way up from a node, a node without a parent is met after fewer steps than there are nodes. -/
theorem WellBuilt.links_agree (h : WellBuilt tree) :
    ((∀ parent child, child ∈ tree.children parent ↔ tree.parent? child = some parent) ∧
      ∀ parent, (tree.children parent).Nodup) ∧
    ((∀ parent,
        LeadsThrough tree.nextSibling? (tree.firstChild? parent) (tree.children parent)) ∧
      ∀ node, tree.parent? node = none → tree.nextSibling? node = none) ∧
    ∀ node < tree.size, ∃ way top, LeadsThrough tree.parent? (some node) (way ++ [top]) ∧
      tree.parent? top = none ∧ way.length < tree.size := by
  have hl := h.linked
  refine ⟨⟨fun _ _ => hl.mem_children, hl.nodup⟩,
    ⟨hl.leadsThrough_children, fun _ => hl.orphan⟩, fun node hn => ?_⟩
  have hlead := hl.leadsThrough_ancestors hn
  have hlen := hl.length_ancestors_lt hn
  rcases List.eq_nil_or_concat (node :: tree.ancestors node) with hnil | ⟨way, top, hway⟩
  · cases hnil
  · rw [List.concat_eq_append] at hway
    have hsum := congrArg List.length hway
    rw [List.length_cons, List.length_append, List.length_singleton] at hsum
    rw [hway] at hlead
    exact ⟨way, top, hlead, hlead.link_last, by omega⟩

/-- A division with a paragraph, built apart and then attached behind another division. -/
def lateDivision : Tree :=
  ((((((Tree.initial.alloc (.element ⟨"div", []⟩)).alloc (.element ⟨"p", []⟩)).alloc
    (.element ⟨"div", []⟩)).append 1 2).append 0 3).append 0 1)

theorem wellBuilt_lateDivision : lateDivision.WellBuilt := by
  have h1 := ((WellBuilt.initial.alloc (.element ⟨"div", []⟩)).alloc (.element ⟨"p", []⟩)).alloc
    (.element ⟨"div", []⟩)
  have h2 := @WellBuilt.append _ _ 1 2 h1 rfl (by decide) (by decide) rfl
  have h3 := @WellBuilt.append _ _ 0 3 h2 rfl (by decide) (by decide) rfl
  exact @WellBuilt.append _ _ 0 1 h3 rfl (by decide) (by decide) rfl

theorem links_agree_lateDivision :
    lateDivision.WellBuilt ∧ lateDivision.children 0 = [3, 1] ∧
      LeadsThrough lateDivision.nextSibling? (some 3) [3, 1] ∧
      ∃ way top, LeadsThrough lateDivision.parent? (some 2) (way ++ [top]) ∧
        lateDivision.parent? top = none ∧ way.length < 4 := by
  have h := wellBuilt_lateDivision.links_agree
  exact ⟨wellBuilt_lateDivision, rfl, h.2.1.1 0, h.2.2 2 (by decide)⟩

end DomSelect.Tree
