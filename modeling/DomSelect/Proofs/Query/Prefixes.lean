import DomSelect.Proofs.Query.Strict

/-!
# Inclusive walks

A strict walk with the first term of a chain, one with its first two terms, and so on up to all of
them: an inclusive walk reports what these walks report (`mem_walk_inclusive_iff`). How many terms
are matched at a node on the way down to it is no matter of choice, so no node is reported by two of
them (`eq_of_mem_walk_take`).
-/

namespace DomSelect

variable {tree : Tree} {start node : NodeId} {terms rest : List Term} {term : Term}

/-- An inclusive walk reports a node exactly if some first terms end there. -/
theorem mem_walk_inclusive_iff (h : tree.Linked) :
    node ∈ walk tree start terms .inclusive ↔
      ∃ before < terms.length, node ∈ walk tree start (terms.take (before + 1)) .strict := by
  -- below a node that matches, the first term is gone from the chain and from all its prefixes
  induction start using h.induction generalizing terms with
  | step start ih =>
    cases terms with
    | nil => simp [walk_nil]
    | cons term rest =>
      simp only [List.take_succ_cons]
      by_cases hm : term.matchesNode tree start = true
      · simp only [mem_walk_of_matches h hm]
        constructor
        · rintro (⟨hn, -⟩ | ⟨child, hc, hn⟩)
          · exact ⟨0, Nat.succ_pos _, .inl ⟨hn, .inr rfl⟩⟩
          · obtain ⟨before, hlt, hn⟩ := (ih child hc).mp hn
            exact ⟨before + 1, Nat.succ_lt_succ hlt, .inr ⟨child, hc, hn⟩⟩
        · rintro ⟨before, hlt, ⟨hn, -⟩ | ⟨child, hc, hn⟩⟩
          · exact .inl ⟨hn, .inl trivial⟩
          · cases before with
            | zero => exact absurd hn List.not_mem_nil
            | succ before =>
              exact .inr ⟨child, hc, (ih child hc).mpr ⟨before, Nat.lt_of_succ_lt_succ hlt, hn⟩⟩
      · simp only [mem_walk_of_not_matches h hm]
        constructor
        · rintro ⟨child, hc, hn⟩
          obtain ⟨before, hlt, hn⟩ := (ih child hc).mp hn
          exact ⟨before, hlt, child, hc, hn⟩
        · rintro ⟨before, hlt, child, hc, hn⟩
          exact ⟨child, hc, (ih child hc).mpr ⟨before, hlt, hn⟩⟩

/-- What walks from two children of one node report lies in different places. -/
theorem eq_of_mem_walk_children (h : tree.Linked) {a b : NodeId} {others : List Term}
    {mode mode' : MatchMode} (ha : a ∈ tree.children start) (hb : b ∈ tree.children start)
    (hna : node ∈ walk tree a terms mode) (hnb : node ∈ walk tree b others mode') : a = b := by
  have hpa := h.mem_children.mp ha
  have hpb := h.mem_children.mp hb
  have hwa := within_of_mem_walk h (Tree.Linked.child_lt hpa) hna
  have hwb := within_of_mem_walk h (Tree.Linked.child_lt hpb) hnb
  exact h.eq_of_within_children hpa hpb hwa hwb

/-- A walk from a child does not come back to the node. -/
theorem not_mem_walk_child (h : tree.Linked) {child : NodeId} {mode : MatchMode}
    (hc : child ∈ tree.children start) : start ∉ walk tree child terms mode := by
  intro hn
  have hp := h.mem_children.mp hc
  have hw := within_of_mem_walk h (Tree.Linked.child_lt hp) hn
  exact h.acyclic start (hw.trans_below (.single hp))

/-- Where a node matches the first term, a walk with more terms does not report it. -/
theorem eq_zero_of_start_mem_walk (h : tree.Linked) (hm : term.matchesNode tree start = true)
    {count : Nat} (hc : count < (term :: rest).length)
    (hn : start ∈ walk tree start (term :: rest.take count) .strict) : count = 0 := by
  rcases (mem_walk_of_matches h hm).mp hn with ⟨-, hr⟩ | ⟨child, hchild, hn⟩
  · rcases List.take_eq_nil_iff.mp (hr.resolve_left nofun) with hzero | rfl
    · exact hzero
    · exact Nat.lt_one_iff.mp hc
  · exact absurd hn (not_mem_walk_child h hchild)

theorem pos_of_mem_walk_take {mode : MatchMode} {count : Nat}
    (hn : node ∈ walk tree start (terms.take count) mode) : 0 < count := by
  refine Nat.pos_of_ne_zero ?_
  rintro rfl
  exact List.not_mem_nil hn

/-- A node ends one number of first terms at most. -/
theorem eq_of_mem_walk_take (h : tree.Linked) {i j : Nat} (hi : i ≤ terms.length)
    (hj : j ≤ terms.length) (hni : node ∈ walk tree start (terms.take i) .strict)
    (hnj : node ∈ walk tree start (terms.take j) .strict) : i = j := by
  induction start using h.induction generalizing terms i j with
  | step start ih =>
    obtain ⟨i, rfl⟩ := Nat.exists_eq_add_one.mpr (pos_of_mem_walk_take hni)
    obtain ⟨j, rfl⟩ := Nat.exists_eq_add_one.mpr (pos_of_mem_walk_take hnj)
    cases terms with
    | nil => exact absurd hi (Nat.not_succ_le_zero _)
    | cons term rest =>
      rw [List.take_succ_cons] at hni hnj
      by_cases hm : term.matchesNode tree start = true
      · by_cases hn : node = start
        · subst hn
          rw [eq_zero_of_start_mem_walk h hm hi hni, eq_zero_of_start_mem_walk h hm hj hnj]
        · -- the node lies below one child, and from there one term fewer is left
          rw [mem_walk_of_matches h hm] at hni hnj
          obtain ⟨a, ha, hna⟩ := hni.resolve_left fun hs => hn hs.1
          obtain ⟨b, hb, hnb⟩ := hnj.resolve_left fun hs => hn hs.1
          obtain rfl := eq_of_mem_walk_children h ha hb hna hnb
          rw [ih a ha (Nat.le_of_succ_le_succ hi) (Nat.le_of_succ_le_succ hj) hna hnb]
      · rw [mem_walk_of_not_matches h hm] at hni hnj
        obtain ⟨a, ha, hna⟩ := hni
        obtain ⟨b, hb, hnb⟩ := hnj
        obtain rfl := eq_of_mem_walk_children h ha hb hna hnb
        exact ih a ha hi hj hna hnb

/-- **Inclusive queries.** Each node of the result is in the strict result of the first terms of the
chain for exactly one number of them, and nothing of these strict results is missing. The nodes come
in tree order, each once, and the strict result of the whole chain is among them. -/
theorem findAllFrom_inclusive (h : tree.WellBuilt) (hs : tree.contains start = true)
    (chain : Chain) :
    ∃ found : MatchMode → List Term → List NodeId,
      (∀ mode terms, tree.findAllFrom start ⟨terms⟩ mode = .ok ⟨tree, found mode terms⟩) ∧
      (∀ node ∈ found .inclusive chain.terms, ∃! count, (1 ≤ count ∧ count ≤ chain.length) ∧
        node ∈ found .strict (chain.terms.take count)) ∧
      (∀ count, 1 ≤ count → count ≤ chain.length →
        ∀ node ∈ found .strict (chain.terms.take count), node ∈ found .inclusive chain.terms) ∧
      (found .inclusive chain.terms).Nodup ∧
      (found .inclusive chain.terms).Sublist (tree.descendants start) ∧
      (found .strict chain.terms).Sublist (found .inclusive chain.terms) := by
  have hl := h.linked
  have hsub := walk_sublist_descendants hl (Tree.contains_iff.mp hs) chain.terms .inclusive
  refine ⟨fun mode terms => walk tree start terms mode, fun mode terms => ?_, fun node hn => ?_,
    fun count hpos hle node hn => ?_, hsub.nodup (hl.nodup_descendants start), hsub,
    walk_strict_sublist_inclusive tree start chain.terms⟩
  · rw [Tree.findAllFrom, if_pos hs]
  · obtain ⟨before, hlt, hn⟩ := (mem_walk_inclusive_iff hl).mp hn
    refine ⟨before + 1, ⟨⟨Nat.succ_pos _, hlt⟩, hn⟩, ?_⟩
    rintro count ⟨⟨-, hle⟩, hn'⟩
    exact eq_of_mem_walk_take hl hle hlt hn' hn
  · obtain ⟨before, rfl⟩ := Nat.exists_eq_add_one.mpr hpos
    exact (mem_walk_inclusive_iff hl).mpr ⟨before, hle, hn⟩

/-- A paragraph in a paragraph in a division: with one term the outer one is reported, with both
terms the inner one. -/
theorem findAllFrom_inclusive_nestedParagraphs :
    nestedParagraphs.WellBuilt ∧ nestedParagraphs.contains 0 = true ∧
      ∃ found : MatchMode → List Term → List NodeId,
        (∀ mode terms, nestedParagraphs.findAllFrom 0 ⟨terms⟩ mode =
          .ok ⟨nestedParagraphs, found mode terms⟩) ∧
        found .inclusive [.ofName "p", .ofName "p"] = [2, 3] ∧
        found .strict [.ofName "p"] = [2] ∧ found .strict [.ofName "p", .ofName "p"] = [3] ∧
        (∃! count, (1 ≤ count ∧ count ≤ 2) ∧
          3 ∈ found .strict ([Term.ofName "p", Term.ofName "p"].take count)) ∧
        2 ∈ found .inclusive [.ofName "p", .ofName "p"] := by
  have hs : nestedParagraphs.contains 0 = true := rfl
  obtain ⟨found, hfound, hunique, hall, -, -, -⟩ := findAllFrom_inclusive
    wellBuilt_nestedParagraphs hs ⟨[.ofName "p", .ofName "p"]⟩
  have hvalue : ∀ mode terms, found mode terms = walk nestedParagraphs 0 terms mode :=
    fun mode terms => (Selection.mk.inj (Except.ok.inj (hfound mode terms))).2.symm
  have hboth : found .inclusive [.ofName "p", .ofName "p"] = [2, 3] := hvalue ..
  have houter : found .strict [.ofName "p"] = [2] := hvalue ..
  have hinner : found .strict [.ofName "p", .ofName "p"] = [3] := hvalue ..
  refine ⟨wellBuilt_nestedParagraphs, hs, found, hfound, hboth, houter, hinner, ?_, ?_⟩
  · exact hunique 3 (by rw [hboth]; decide)
  · refine hall 1 (Nat.le_refl _) (by decide) 2 ?_
    rw [List.take_succ_cons, List.take_zero, houter]
    decide

end DomSelect
