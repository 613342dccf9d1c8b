import DomSelect.Proofs.Query.Prefixes

/-!
# Strict walks one after the other

A strict walk with two groups of terms is a walk with the first group, followed by walks with the
second group from the children of each node found (`walk_append`). What the walk reports thus lies
strictly below something that the first group finds, and is not itself found by it
(`findAllFrom_append`).
-/

namespace DomSelect

variable {tree : Tree} {start node : NodeId} {first second : List Term}

/-- The position moves on from the first group to the second at the nodes that the first finds. -/
theorem walk_append (h : tree.Linked) (hfirst : first ≠ []) (hsecond : second ≠ []) :
    walk tree start (first ++ second) .strict =
      (walk tree start first .strict).flatMap fun above =>
        (tree.children above).flatMap fun child => walk tree child second .strict := by
  induction start using h.induction generalizing first with
  | step start ih =>
    obtain ⟨term, rest, rfl⟩ := List.exists_cons_of_ne_nil hfirst
    rw [List.cons_append, walk_cons h, walk_cons h]
    by_cases hm : term.matchesNode tree start = true
    · rw [if_pos hm, if_pos hm, if_neg (by simp [hsecond]), List.nil_append]
      cases rest with
      | nil => simp [walk_nil]
      | cons next others =>
        rw [if_neg (by simp), List.nil_append, List.flatMap_assoc]
        exact List.flatMap_congr fun child hc => ih child hc (List.cons_ne_nil _ _)
    · rw [if_neg hm, if_neg hm, List.flatMap_assoc]
      exact List.flatMap_congr fun child hc => ih child hc hfirst

/-- What both groups find lies below what the first one finds. -/
theorem exists_below_of_mem_walk_append (h : tree.Linked) (hfirst : first ≠ [])
    (hsecond : second ≠ []) (hn : node ∈ walk tree start (first ++ second) .strict) :
    ∃ above ∈ walk tree start first .strict, tree.Below node above := by
  rw [walk_append h hfirst hsecond] at hn
  obtain ⟨above, ha, hn⟩ := List.mem_flatMap.mp hn
  obtain ⟨child, hc, hn⟩ := List.mem_flatMap.mp hn
  have hp := h.mem_children.mp hc
  have hw := within_of_mem_walk h (Tree.Linked.child_lt hp) hn
  exact ⟨above, ha, hw.trans_below (.single hp)⟩

/-- The first group alone does not find it. -/
theorem not_mem_walk_of_mem_walk_append (h : tree.Linked) (hsecond : second ≠ [])
    (hn : node ∈ walk tree start (first ++ second) .strict) :
    node ∉ walk tree start first .strict := by
  intro hn'
  have hlen : (first ++ second).length = first.length + second.length := List.length_append
  have hpos := List.length_pos_iff.mpr hsecond
  -- the first group and the whole chain are both beginnings of the whole chain
  have hsome : (first ++ second).take first.length = first := List.take_left
  have hall : (first ++ second).take (first ++ second).length = first ++ second := List.take_length
  rw [← hsome] at hn'
  rw [← hall] at hn
  have := eq_of_mem_walk_take h (Nat.le_refl _) (by omega) hn hn'
  omega

/-- **The descendant combinator.** The strict result of two chains in a row is, for each node of the
strict result of the first chain and for each child of this node, in order, the strict result of the
second chain from this child. Nothing in it is found by the first chain, and all of it lies strictly
below what the first chain finds. -/
theorem findAllFrom_append (h : tree.WellBuilt) (hs : tree.contains start = true)
    (first second : Chain) (hfirst : first.terms ≠ []) (hsecond : second.terms ≠ []) :
    ∃ found : NodeId → Chain → List NodeId,
      (∀ node chain, tree.contains node = true →
        tree.findAllFrom node chain .strict = .ok ⟨tree, found node chain⟩) ∧
      (∀ above ∈ found start first, ∀ child ∈ tree.children above, tree.contains child = true) ∧
      tree.findAllFrom start ⟨first.terms ++ second.terms⟩ .strict =
        .ok ⟨tree, (found start first).flatMap fun above =>
          (tree.children above).flatMap fun child => found child second⟩ ∧
      ∀ node ∈ found start ⟨first.terms ++ second.terms⟩, node ∉ found start first ∧
        ∃ above ∈ found start first, tree.isDescendantOf node above = true := by
  have hl := h.linked
  refine ⟨fun node chain => walk tree node chain.terms .strict, fun node chain hc => ?_,
    fun above _ child hc => ?_, ?_, fun node hn => ⟨?_, ?_⟩⟩
  · rw [Tree.findAllFrom, if_pos hc]
  · exact Tree.contains_iff.mpr (Tree.Linked.child_lt (hl.mem_children.mp hc))
  · rw [Tree.findAllFrom, if_pos hs, walk_append hl hfirst hsecond]
  · exact not_mem_walk_of_mem_walk_append hl hsecond hn
  · obtain ⟨above, ha, hb⟩ := exists_below_of_mem_walk_append hl hfirst hsecond hn
    exact ⟨above, ha, hl.isDescendantOf_iff.mpr hb⟩

/-- Two paragraphs in a division, the first of them with a paragraph inside. -/
def branchedParagraphs : Tree :=
  nestedParagraphs.addChild 1 (.element ⟨"p", []⟩)

theorem findAllFrom_append_branchedParagraphs :
    branchedParagraphs.WellBuilt ∧ branchedParagraphs.contains 0 = true ∧
      ∃ found : NodeId → Chain → List NodeId,
        (∀ node chain, branchedParagraphs.contains node = true →
          branchedParagraphs.findAllFrom node chain .strict =
            .ok ⟨branchedParagraphs, found node chain⟩) ∧
        found 0 ⟨[.ofName "div"]⟩ = [1] ∧ branchedParagraphs.children 1 = [2, 4] ∧
        found 2 ⟨[.ofName "p"]⟩ = [2] ∧ found 4 ⟨[.ofName "p"]⟩ = [4] ∧
        branchedParagraphs.findAllFrom 0 ⟨[.ofName "div", .ofName "p"]⟩ .strict =
          .ok ⟨branchedParagraphs, [2, 4]⟩ := by
  have hw : branchedParagraphs.WellBuilt := wellBuilt_nestedParagraphs.addChild (by decide) _
  have hs : branchedParagraphs.contains 0 = true := rfl
  obtain ⟨found, hfound, hchildren, happend, -⟩ := findAllFrom_append hw hs ⟨[.ofName "div"]⟩
    ⟨[.ofName "p"]⟩ (List.cons_ne_nil _ _) (List.cons_ne_nil _ _)
  have hvalue : ∀ node chain, branchedParagraphs.contains node = true →
      found node chain = walk branchedParagraphs node chain.terms .strict := fun node chain hc => by
    have := hfound node chain hc
    rw [Tree.findAllFrom, if_pos hc] at this
    exact (Selection.mk.inj (Except.ok.inj this)).2.symm
  have hdiv : found 0 ⟨[.ofName "div"]⟩ = [1] := hvalue 0 _ hs
  have hfirst : found 2 ⟨[.ofName "p"]⟩ = [2] := hvalue 2 _ rfl
  have hsecond : found 4 ⟨[.ofName "p"]⟩ = [4] := hvalue 4 _ rfl
  have hbelow : branchedParagraphs.children 1 = [2, 4] := rfl
  refine ⟨hw, hs, found, hfound, hdiv, hbelow, hfirst, hsecond, happend.trans ?_⟩
  simp [hdiv, hbelow, hfirst, hsecond]

end DomSelect
