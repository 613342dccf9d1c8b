import DomSelect.Proofs.Query.Walking
import DomSelect.Query.Selection

/-!
# Strict walks

`EndsAt tree start terms node` says that the terms are matched one by one on the path from `start`
down to `node`, the last of them at `node`. A strict walk takes each term at the first node that
matches it. This loses only matches below other matches: what it reports are the `Outermost` nodes
at which the terms end (`walk_strict_eq_filter`).

A match of the terms from a node on is a match from one of its children on, of all terms or of all
but the first (`endsAt_child_of_matches`, `endsAt_child_of_not_matches`), as in `walk_cons`.
-/

namespace DomSelect

variable {tree : Tree} {start node child parent top : NodeId} {term : Term} {terms rest : List Term}

/-- Nodes on the path from `start` down to `node`, each strictly below the one before, match the
terms one by one, and the last of these nodes is `node`. -/
def EndsAt (tree : Tree) (start : NodeId) (terms : List Term) (node : NodeId) : Prop :=
  ∃ nodes : List NodeId, nodes.getLast? = some node ∧
    (∀ above ∈ nodes, tree.Within above start ∧ tree.Within node above) ∧
    nodes.IsChain (fun above below => tree.Below below above) ∧
    List.Forall₂ (fun term above => term.matchesNode tree above = true) terms nodes

/-- The terms end at `node` and at no node above it. -/
def Outermost (tree : Tree) (start : NodeId) (terms : List Term) (node : NodeId) : Prop :=
  EndsAt tree start terms node ∧
    ∀ above, tree.Below node above → tree.Within above start → ¬ EndsAt tree start terms above

/-! ## Matches term by term -/

theorem EndsAt.within (h : EndsAt tree start terms node) : tree.Within node start := by
  obtain ⟨nodes, hlast, hpath, -, -⟩ := h
  exact (hpath node (List.mem_of_getLast? hlast)).1

theorem not_endsAt_nil (tree : Tree) (start node : NodeId) : ¬ EndsAt tree start [] node := by
  rintro ⟨nodes, hlast, -, -, hmatch⟩
  cases hmatch
  cases hlast

/-- A match from a lower start is a match from a higher one. -/
theorem EndsAt.mono (h : EndsAt tree start terms node) (hs : tree.Within start top) :
    EndsAt tree top terms node := by
  obtain ⟨nodes, hlast, hpath, hchain, hmatch⟩ := h
  exact ⟨nodes, hlast, fun above ha => ⟨(hpath above ha).1.trans hs, (hpath above ha).2⟩, hchain,
    hmatch⟩

theorem endsAt_singleton :
    EndsAt tree start [term] node ↔
      tree.Within node start ∧ term.matchesNode tree node = true := by
  constructor
  · intro h
    refine ⟨h.within, ?_⟩
    obtain ⟨nodes, hlast, -, -, hmatch⟩ := h
    cases hmatch with
    | @cons _ first _ _ hfirst hnil =>
      cases hnil
      obtain rfl : first = node := Option.some.inj hlast
      exact hfirst
  · rintro ⟨hw, hm⟩
    refine ⟨[node], rfl, fun above ha => ?_, .singleton _, .cons hm .nil⟩
    obtain rfl := List.mem_singleton.mp ha
    exact ⟨hw, .refl ..⟩

/-- With terms left, a match goes on below the node that matches the first term. -/
theorem endsAt_cons (hr : rest ≠ []) :
    EndsAt tree start (term :: rest) node ↔
      ∃ first child, tree.Within first start ∧ term.matchesNode tree first = true ∧
        tree.parent? child = some first ∧ EndsAt tree child rest node := by
  have : IsTrans NodeId fun above below => tree.Below below above :=
    ⟨fun _ _ _ h h' => Relation.TransGen.trans h' h⟩
  constructor
  · rintro ⟨nodes, hlast, hpath, hchain, hmatch⟩
    rw [List.isChain_iff_pairwise] at hchain
    cases hmatch with
    | @cons _ first _ others hfirst hothers =>
      cases hothers with
      | nil => exact absurd rfl hr
      | @cons next second rest others hsecond hothers =>
        obtain ⟨hbelow, hchain⟩ := List.pairwise_cons.mp hchain
        obtain ⟨child, hsc, hchild⟩ := Tree.below_iff_child.mp (hbelow second List.mem_cons_self)
        refine ⟨first, child, (hpath first List.mem_cons_self).1, hfirst, hchild, second :: others,
          by rwa [List.getLast?_cons_cons] at hlast, fun above ha => ⟨?_, ?_⟩,
          List.isChain_iff_pairwise.mpr hchain, .cons hsecond hothers⟩
        · rcases List.mem_cons.mp ha with rfl | ha
          · exact hsc
          · exact ((List.pairwise_cons.mp hchain).1 above ha).within.trans hsc
        · exact (hpath above (List.mem_cons_of_mem _ ha)).2
  · rintro ⟨first, child, hw, hfirst, hchild, nodes, hlast, hpath, hchain, hmatch⟩
    have hbelow : ∀ above ∈ nodes, tree.Below above first := fun above ha =>
      (hpath above ha).1.trans_below (.single hchild)
    have hnode : tree.Below node first := hbelow node (List.mem_of_getLast? hlast)
    refine ⟨first :: nodes, ?_, fun above ha => ?_, ?_, .cons hfirst hmatch⟩
    · rw [List.getLast?_cons, hlast]
      rfl
    · rcases List.mem_cons.mp ha with rfl | ha
      · exact ⟨hw, hnode.within⟩
      · exact ⟨(hbelow above ha).within.trans hw, (hpath above ha).2⟩
    · rw [List.isChain_iff_pairwise] at hchain ⊢
      exact List.pairwise_cons.mpr ⟨hbelow, hchain⟩

/-! ## Matches from a child on -/

/-- A node between another one and what lies within a child of it lies within this child. -/
theorem Tree.Linked.within_child (h : tree.Linked) (hc : tree.parent? child = some parent)
    (hn : tree.Within node child) (ht : tree.Within node top) (hp : tree.Below top parent) :
    tree.Within top child := by
  obtain ⟨other, hto, ho⟩ := Tree.below_iff_child.mp hp
  rwa [h.eq_of_within_children hc ho hn (ht.trans hto)]

/-- With terms left, no match from a node on ends at this node. -/
theorem not_endsAt_start (h : tree.Linked) (hr : rest ≠ []) :
    ¬ EndsAt tree start (term :: rest) start := by
  rw [endsAt_cons hr]
  rintro ⟨first, child, hw, -, hchild, hrest⟩
  have hbelow : tree.Below start first := hrest.within.trans_below (.single hchild)
  exact h.acyclic start (hbelow.trans_within hw)

/-- The first term is taken by a node that matches it: a match below takes the other terms. -/
theorem endsAt_child_of_matches (h : tree.Linked) (hm : term.matchesNode tree parent = true)
    (hr : rest ≠ []) (hc : tree.parent? child = some parent) (hn : tree.Within node child) :
    EndsAt tree parent (term :: rest) node ↔ EndsAt tree child rest node := by
  constructor
  · rw [endsAt_cons hr]
    rintro ⟨first, next, hw, -, hnext, hrest⟩
    have hnf : tree.Within node first := hrest.within.trans (.single hnext)
    rcases Tree.within_iff.mp hw with rfl | hbelow
    · rwa [h.eq_of_within_children hc hnext hn hrest.within]
    · exact hrest.mono ((Tree.Within.trans (.single hnext)) (h.within_child hc hn hnf hbelow))
  · intro hrest
    exact (endsAt_cons hr).mpr ⟨parent, child, .refl .., hm, hc, hrest⟩

/-- A node that does not match the first term leaves all terms to what is below. -/
theorem endsAt_child_of_not_matches (h : tree.Linked) (hm : ¬ term.matchesNode tree parent = true)
    (hc : tree.parent? child = some parent) (hn : tree.Within node child) :
    EndsAt tree parent (term :: rest) node ↔ EndsAt tree child (term :: rest) node := by
  refine ⟨fun he => ?_, fun he => he.mono (.single hc)⟩
  by_cases hr : rest = []
  · subst hr
    exact endsAt_singleton.mpr ⟨hn, (endsAt_singleton.mp he).2⟩
  · obtain ⟨first, next, hw, hfirst, hnext, hrest⟩ := (endsAt_cons hr).mp he
    have hnf : tree.Within node first := hrest.within.trans (.single hnext)
    rcases Tree.within_iff.mp hw with rfl | hbelow
    · exact absurd hfirst hm
    · exact (endsAt_cons hr).mpr
        ⟨first, next, h.within_child hc hn hnf hbelow, hfirst, hnext, hrest⟩

theorem not_endsAt_of_not_matches (h : tree.Linked) (hm : ¬ term.matchesNode tree start = true) :
    ¬ EndsAt tree start (term :: rest) start := by
  by_cases hr : rest = []
  · subst hr
    rw [endsAt_singleton]
    exact fun he => hm he.2
  · exact not_endsAt_start h hr

/-- What carries matches to a child carries outermost matches there. -/
theorem outermost_child (h : tree.Linked) (hc : tree.parent? child = some parent)
    (hstart : ¬ EndsAt tree parent terms parent)
    (hiff : ∀ node, tree.Within node child →
      (EndsAt tree parent terms node ↔ EndsAt tree child rest node))
    (hn : tree.Within node child) :
    Outermost tree parent terms node ↔ Outermost tree child rest node := by
  unfold Outermost
  rw [hiff node hn]
  refine and_congr_right fun _ => forall_congr' fun above => forall_congr' fun ha => ?_
  constructor
  · intro hout hw
    rw [← hiff above hw]
    exact hout (hw.trans (.single hc))
  · intro hout hw
    rcases Tree.within_iff.mp hw with rfl | hbelow
    · exact hstart
    · have hwc := h.within_child hc hn ha.within hbelow
      rw [hiff above hwc]
      exact hout hwc

/-! ## The result of a strict walk -/

section Classical

open scoped Classical

/-- If no match ends at the start, the outermost matches are found child by child. -/
theorem filter_outermost_below (h : tree.Linked) (hs : start < tree.size)
    (hstart : ¬ EndsAt tree start terms start)
    (hiff : ∀ child ∈ tree.children start, ∀ node, tree.Within node child →
      (EndsAt tree start terms node ↔ EndsAt tree child rest node)) :
    (tree.descendants start).filter (fun node => Outermost tree start terms node) =
      (tree.children start).flatMap fun child =>
        (tree.descendants child).filter (fun node => Outermost tree child rest node) := by
  have hneg : ¬ Outermost tree start terms start := fun ho => hstart ho.1
  rw [h.descendants_eq hs, List.filter_cons_of_neg (by rwa [decide_eq_true_iff]),
    List.filter_flatMap]
  refine List.flatMap_congr fun child hc => List.filter_congr fun node hn => ?_
  have hp := h.mem_children.mp hc
  rw [h.mem_descendants_iff (Tree.Linked.child_lt hp)] at hn
  rw [decide_eq_decide]
  exact outermost_child h hp hstart (hiff child hc) hn

/-- If one term is left and the start matches it, no other match is outermost. -/
theorem filter_outermost_start (h : tree.Linked) (hs : start < tree.size)
    (hm : term.matchesNode tree start = true) :
    (tree.descendants start).filter (fun node => Outermost tree start [term] node) = [start] := by
  have hends : EndsAt tree start [term] start := endsAt_singleton.mpr ⟨.refl .., hm⟩
  have hout : Outermost tree start [term] start :=
    ⟨hends, fun above ha hw => absurd (ha.trans_within hw) (h.acyclic start)⟩
  rw [h.descendants_eq hs, List.filter_cons_of_pos (by rwa [decide_eq_true_iff]),
    List.filter_eq_nil_iff.mpr]
  intro node hn
  obtain ⟨child, hc, hn⟩ := List.mem_flatMap.mp hn
  have hp := h.mem_children.mp hc
  rw [h.mem_descendants_iff (Tree.Linked.child_lt hp)] at hn
  rw [decide_eq_true_iff]
  intro ho
  exact ho.2 start (hn.trans_below (.single hp)) (.refl ..) hends

/-- **Strict walks.** They report the outermost matches, in tree order. -/
theorem walk_strict_eq_filter (h : tree.Linked) (hs : start < tree.size) (terms : List Term) :
    walk tree start terms .strict =
      (tree.descendants start).filter (fun node => Outermost tree start terms node) := by
  -- a level down the walk may have one term fewer, so the terms vary with the start
  induction start using h.induction generalizing terms with
  | step start ih =>
    have hlt : ∀ child ∈ tree.children start, child < tree.size := fun child hc =>
      Tree.Linked.child_lt (h.mem_children.mp hc)
    have hbelow : ∀ left : List Term,
        (tree.children start).flatMap (fun child => walk tree child left .strict) =
          (tree.children start).flatMap fun child =>
            (tree.descendants child).filter (fun node => Outermost tree child left node) :=
      fun left => List.flatMap_congr fun child hc => ih child hc (hlt child hc) left
    cases terms with
    | nil =>
      rw [walk_nil, eq_comm, List.filter_eq_nil_iff]
      intro node _
      rw [decide_eq_true_iff]
      exact fun ho => not_endsAt_nil _ _ _ ho.1
    | cons term rest =>
      rw [walk_cons h]
      by_cases hm : term.matchesNode tree start = true
      · rw [if_pos hm]
        by_cases hr : rest = []
        · subst hr
          rw [filter_outermost_start h hs hm]
          simp [walk_nil]
        · rw [if_neg (by simp [hr]), List.nil_append, hbelow]
          refine (filter_outermost_below h hs (not_endsAt_start h hr) ?_).symm
          intro child hc node hn
          exact endsAt_child_of_matches h hm hr (h.mem_children.mp hc) hn
      · rw [if_neg hm, hbelow]
        refine (filter_outermost_below h hs (not_endsAt_of_not_matches h hm) ?_).symm
        intro child hc node hn
        exact endsAt_child_of_not_matches h hm (h.mem_children.mp hc) hn

end Classical

theorem mem_walk_strict_iff (h : tree.Linked) (hs : start < tree.size) :
    node ∈ walk tree start terms .strict ↔
      node ∈ tree.descendants start ∧ Outermost tree start terms node := by
  classical
  rw [walk_strict_eq_filter h hs, List.mem_filter, decide_eq_true_iff]

/-- Going up from a match, the last one that is met is outermost. -/
theorem EndsAt.exists_outermost (h : tree.Linked) (he : EndsAt tree start terms node) :
    ∃ top, Outermost tree start terms top := by
  have key : ∀ low, tree.Within low start → ∀ upper, tree.Within low upper →
      EndsAt tree start terms upper → ∃ top, Outermost tree start terms top := by
    intro low hw
    -- the chain of parents from the match up to the start, its upper end first
    induction hw using Relation.ReflTransGen.head_induction_on with
    | refl =>
      intro upper hlow he
      obtain rfl : upper = start := h.within_antisymm he.within hlow
      exact ⟨upper, he, fun above ha hw => absurd (ha.trans_within hw) (h.acyclic upper)⟩
    | @head low parent hp _ ih =>
      have hup : ∀ above, tree.Below low above → EndsAt tree start terms above →
          ∃ top, Outermost tree start terms top := by
        intro above ha hae
        obtain ⟨next, hn, hna⟩ := Tree.below_iff_parent.mp ha
        obtain rfl : parent = next := Option.some.inj (hp.symm.trans hn)
        exact ih above hna hae
      intro upper hlow he
      rcases Tree.within_iff.mp hlow with rfl | hb
      · by_cases hout : Outermost tree start terms low
        · exact ⟨low, hout⟩
        · by_contra hno
          exact hout ⟨he, fun above ha _ hae => hno (hup above ha hae)⟩
      · exact hup upper hb he
  exact key node he.within node (.refl ..) he

theorem walk_strict_eq_nil_iff (h : tree.Linked) (hs : start < tree.size) :
    walk tree start terms .strict = [] ↔ ∀ node, ¬ EndsAt tree start terms node := by
  rw [List.eq_nil_iff_forall_not_mem]
  constructor
  · intro hnil node he
    obtain ⟨top, hout⟩ := he.exists_outermost h
    exact hnil top ((mem_walk_strict_iff h hs).mpr
      ⟨(h.mem_descendants_iff hs).mpr hout.1.within, hout⟩)
  · intro hall node hm
    exact hall node ((mem_walk_strict_iff h hs).mp hm).2.1

/-- **Strict queries.** On a tree with a disciplined history they list, in tree order and each
once, the descendants of the start at which the whole chain ends and above which it does not. -/
theorem findAllFrom_strict (h : tree.WellBuilt) (hs : tree.contains start = true) (chain : Chain) :
    ∃ nodes, tree.findAllFrom start chain .strict = .ok ⟨tree, nodes⟩ ∧
      nodes.Sublist (tree.descendants start) ∧ nodes.Nodup ∧
      (∀ node, node ∈ nodes ↔
        node ∈ tree.descendants start ∧ Outermost tree start chain.terms node) ∧
      (chain.terms = [] → nodes = []) := by
  classical
  have hlt := Tree.contains_iff.mp hs
  have hsub : (walk tree start chain.terms .strict).Sublist (tree.descendants start) := by
    rw [walk_strict_eq_filter h.linked hlt]
    exact List.filter_sublist
  refine ⟨walk tree start chain.terms .strict, ?_, hsub, ?_, fun node => ?_, fun hnil => ?_⟩
  · rw [Tree.findAllFrom, if_pos hs]
  · exact hsub.nodup (h.linked.nodup_descendants start)
  · exact mem_walk_strict_iff h.linked hlt
  · rw [hnil]
    exact walk_nil ..

/-- A paragraph inside a paragraph of a division. -/
def nestedParagraphs : Tree :=
  ((Tree.initial.addChild 0 (.element ⟨"div", []⟩)).addChild 1 (.element ⟨"p", []⟩)).addChild 2
    (.element ⟨"p", []⟩)

theorem wellBuilt_nestedParagraphs : nestedParagraphs.WellBuilt :=
  ((Tree.WellBuilt.initial.addChild (by decide) _).addChild (by decide) _).addChild (by decide) _

/-- Of the two paragraphs, the outer one is listed. -/
theorem findAllFrom_strict_nestedParagraphs :
    nestedParagraphs.WellBuilt ∧ nestedParagraphs.contains 0 = true ∧
      nestedParagraphs.findAllFrom 0 ⟨[.ofName "div", .ofName "p"]⟩ .strict =
        .ok ⟨nestedParagraphs, [2]⟩ ∧
      nestedParagraphs.descendants 0 = [0, 1, 2, 3] ∧
      [2].Sublist (nestedParagraphs.descendants 0) ∧ [2].Nodup ∧
      ∀ node, node ∈ [2] ↔ node ∈ nestedParagraphs.descendants 0 ∧
        Outermost nestedParagraphs 0 [.ofName "div", .ofName "p"] node := by
  have hs : nestedParagraphs.contains 0 = true := rfl
  have hvalue : nestedParagraphs.findAllFrom 0 ⟨[.ofName "div", .ofName "p"]⟩ .strict =
      .ok ⟨nestedParagraphs, [2]⟩ := rfl
  obtain ⟨nodes, hfind, hsub, hnodup, hiff, -⟩ :=
    findAllFrom_strict wellBuilt_nestedParagraphs hs ⟨[.ofName "div", .ofName "p"]⟩
  obtain rfl : nodes = [2] := congrArg Selection.nodes (Except.ok.inj (hfind.symm.trans hvalue))
  exact ⟨wellBuilt_nestedParagraphs, hs, hvalue, rfl, hsub, hnodup, hiff⟩

end DomSelect
