import DomSelect.Proofs.Query.Walking

/-!
# The walk as a recursive procedure

`Recurses` is the procedure that a walk stands for: called for a node with the position of a term, it
tries the node against the term and is then called for the children, from the first child along next
siblings, unless the last term has matched. A walk keeps a stack instead and reports the same nodes
in the same order, for every tree that any steps have made, as long as the procedure comes to an end
(`walk_eq_recursion`).
-/

namespace DomSelect

open DomSelect.Preorder (Traversal Unfolds)

variable {tree : Tree} {terms : List Term} {mode : MatchMode} {node start : NodeId}
  {link : Option NodeId} {position : Nat} {nodes reported : List NodeId} {term : Term}

/-! ## The procedure -/

mutual

/-- The procedure, called for a node with the position of a term, reports these nodes. -/
inductive Recurses (tree : Tree) (terms : List Term) (mode : MatchMode) :
    NodeId → Nat → List NodeId → Prop
  /-- A match of the last term is reported, and nothing below it is visited. -/
  | last {node : NodeId} {position : Nat} {term : Term} (hterm : terms[position]? = some term)
      (hmatch : term.matchesNode tree node = true) (hlast : position + 1 = terms.length) :
      Recurses tree terms mode node position [node]
  /-- A match of another term is reported in inclusive mode; below it the next term is tried. -/
  | hit {node : NodeId} {position : Nat} {term : Term} {below : List NodeId}
      (hterm : terms[position]? = some term) (hmatch : term.matchesNode tree node = true)
      (hmore : position + 1 < terms.length)
      (hbelow : RecursesAlong tree terms mode (tree.firstChild? node) (position + 1) below) :
      Recurses tree terms mode node position
        ((if mode = .inclusive then [node] else []) ++ below)
  /-- Below a node that does not match the same term is tried. -/
  | miss {node : NodeId} {position : Nat} {term : Term} {below : List NodeId}
      (hterm : terms[position]? = some term) (hmiss : ¬ term.matchesNode tree node = true)
      (hbelow : RecursesAlong tree terms mode (tree.firstChild? node) position below) :
      Recurses tree terms mode node position below

/-- The procedure, called for a node and then for one next sibling after the other, reports these
nodes. -/
inductive RecursesAlong (tree : Tree) (terms : List Term) (mode : MatchMode) :
    Option NodeId → Nat → List NodeId → Prop
  | none (position : Nat) : RecursesAlong tree terms mode none position []
  | some {node : NodeId} {position : Nat} {first rest : List NodeId}
      (hfirst : Recurses tree terms mode node position first)
      (hrest : RecursesAlong tree terms mode (tree.nextSibling? node) position rest) :
      RecursesAlong tree terms mode (some node) position (first ++ rest)

end

/-! ## Stack and calls -/

namespace Walk

/-- If the calls for the children of a node report what the walk reports from there, so does the call
for the node. -/
theorem recurses_iff_of_children (hc : tree.Closed)
    (hf : tree.FiniteFrom (tree.firstChild? node)) (hp : position < terms.length)
    (hbelow : ∀ next < terms.length, ∀ below,
      RecursesAlong tree terms mode (tree.firstChild? node) next below ↔
        below = (tree.linkedChildren node).flatMap fun child =>
          reportFrom tree terms mode ⟨child, next⟩) :
    Recurses tree terms mode node position reported ↔
      reported = reportFrom tree terms mode ⟨node, position⟩ := by
  obtain ⟨term, hterm⟩ : ∃ term, terms[position]? = some term := ⟨_, List.getElem?_eq_getElem hp⟩
  rw [reportFrom_of_getElem? hc hf hterm]
  constructor
  · intro h
    cases h with
    | last hterm' hmatch hlast =>
      obtain rfl := Option.some.inj (hterm.symm.trans hterm')
      simp [hmatch, hlast]
    | hit hterm' hmatch hmore hb =>
      obtain rfl := Option.some.inj (hterm.symm.trans hterm')
      rw [(hbelow _ hmore _).mp hb]
      simp [hmatch, Nat.ne_of_lt hmore]
    | miss hterm' hmiss hb =>
      obtain rfl := Option.some.inj (hterm.symm.trans hterm')
      rw [(hbelow _ hp _).mp hb, if_neg hmiss]
  · rintro rfl
    by_cases hm : term.matchesNode tree node = true
    · rw [if_pos hm]
      by_cases hlast : position + 1 = terms.length
      · rw [if_pos (.inr hlast), if_pos hlast, List.append_nil]
        exact .last hterm hm hlast
      · have hmore : position + 1 < terms.length := by omega
        rw [if_neg hlast]
        simp only [hlast, or_false]
        exact .hit hterm hm hmore ((hbelow _ hmore _).mpr rfl)
    · rw [if_neg hm]
      exact .miss hterm hm ((hbelow _ hp _).mpr rfl)

theorem recursesAlong_iff (hc : tree.Closed) (hf : tree.FiniteFrom link) :
    ∀ position < terms.length, ∀ nodes, Tree.LeadsThrough tree.nextSibling? link nodes →
      ∀ reported, RecursesAlong tree terms mode link position reported ↔
        reported = nodes.flatMap fun node => reportFrom tree terms mode ⟨node, position⟩ := by
  induction hf with
  | none =>
    intro position _ nodes hlead reported
    cases hlead
    constructor
    · intro h
      cases h
      rfl
    · rintro rfl
      exact .none position
  | @some node below _ ihbelow ihlater =>
    intro position hp nodes hlead reported
    cases hlead with
    | passes hlead =>
      have hnode : ∀ reported, Recurses tree terms mode node position reported ↔
          reported = reportFrom tree terms mode ⟨node, position⟩ := fun reported =>
        recurses_iff_of_children hc below hp fun next hn below' =>
          ihbelow next hn _ (hc.leadsThrough_linkedChildren below) below'
      rw [List.flatMap_cons]
      constructor
      · intro h
        cases h with
        | some hfirst hrest =>
          rw [(hnode _).mp hfirst, (ihlater position hp _ hlead _).mp hrest]
      · rintro rfl
        exact .some ((hnode _).mpr rfl) ((ihlater position hp _ hlead _).mpr rfl)

theorem recurses_iff (hc : tree.Closed) (hf : tree.FiniteFrom (tree.firstChild? node))
    (hp : position < terms.length) :
    Recurses tree terms mode node position reported ↔
      reported = reportFrom tree terms mode ⟨node, position⟩ :=
  recurses_iff_of_children hc hf hp fun next hn =>
    recursesAlong_iff hc hf next hn _ (hc.leadsThrough_linkedChildren hf)

/-- Every entry on the stack has the position of a term. -/
theorem position_lt_of_pending (tree : Tree) (start : NodeId) (hterms : terms ≠ []) (count : Nat) :
    ∀ entry ∈ (Traversal.steps (expand tree terms) count ⟨[⟨start, 0⟩], []⟩).pending,
      entry.position < terms.length := by
  refine Traversal.forall_pending_steps (fun entry hp below hb => (mem_expand hb hp).2.2) count ?_
  exact List.forall_mem_singleton.mpr (List.length_pos_iff.mpr hterms)

/-- Nothing is visited but the start and what hangs below it. -/
theorem linkedWithin_of_mem_visits (hc : tree.Closed)
    (hf : tree.FiniteFrom (tree.firstChild? start)) (hterms : terms ≠ []) :
    ∀ entry ∈ visits tree terms start, tree.LinkedWithin entry.node start := by
  have hpos := List.length_pos_iff.mpr hterms
  obtain ⟨below, hb, -⟩ := hc.exists_unfolds_below hf
  intro entry he
  have hin := (unfolds_visitsFrom_of_unfolds hc ⟨start, 0⟩ hb hpos).2 entry he
  exact hb.singleton.forall_mem (List.forall_mem_singleton.mpr .refl)
    (fun _ hw _ hchild => hw.tail hchild) entry.node hin

end Walk

/-! ## Another next sibling -/

namespace Tree

/-- The tree in which something else comes after `changed`. -/
def withNextSibling (tree : Tree) (changed : NodeId) (next : Option NodeId) : Tree :=
  tree.modify changed fun node => { node with nextSibling := next }

theorem size_withNextSibling (tree : Tree) (changed : NodeId) (next : Option NodeId) :
    (tree.withNextSibling changed next).size = tree.size := size_modify ..

theorem node?_withNextSibling (tree : Tree) (changed : NodeId) (next : Option NodeId) (id : NodeId) :
    (tree.withNextSibling changed next).node? id = (tree.node? id).map fun node =>
      if changed = id then { node with nextSibling := next } else node := by
  rw [withNextSibling, node?_modify]
  by_cases h : changed = id <;> simp [h]

theorem content?_withNextSibling (tree : Tree) (changed : NodeId) (next : Option NodeId)
    (id : NodeId) : (tree.withNextSibling changed next).content? id = tree.content? id := by
  unfold content?
  rw [node?_withNextSibling]
  cases tree.node? id with
  | none => rfl
  | some node => by_cases h : changed = id <;> simp [h]

theorem firstChild?_withNextSibling (tree : Tree) (changed : NodeId) (next : Option NodeId)
    (id : NodeId) : (tree.withNextSibling changed next).firstChild? id = tree.firstChild? id := by
  unfold firstChild?
  rw [node?_withNextSibling]
  cases tree.node? id with
  | none => rfl
  | some node => by_cases h : changed = id <;> simp [h]

theorem nextSibling?_withNextSibling {changed id : NodeId} (h : changed ≠ id) (tree : Tree)
    (next : Option NodeId) :
    (tree.withNextSibling changed next).nextSibling? id = tree.nextSibling? id := by
  unfold nextSibling?
  rw [node?_withNextSibling]
  cases tree.node? id with
  | none => rfl
  | some node => simp [h]

theorem linkedChildren_withNextSibling {changed : NodeId} (next : Option NodeId)
    (h : changed ∉ tree.linkedChildren node) :
    (tree.withNextSibling changed next).linkedChildren node = tree.linkedChildren node := by
  unfold linkedChildren at h ⊢
  rw [size_withNextSibling, firstChild?_withNextSibling]
  refine follow_congr fun id hid => nextSibling?_withNextSibling (fun he => h ?_) tree next
  rwa [he]

end Tree

/-- What comes after the start does not matter: no sibling of it is visited as such. -/
theorem walk_withNextSibling (hc : tree.Closed) (hf : tree.FiniteFrom (tree.firstChild? start))
    (hterms : terms ≠ []) (mode : MatchMode) (next : Option NodeId) :
    walk (tree.withNextSibling start next) start terms mode = walk tree start terms mode := by
  have hpos := List.length_pos_iff.mpr hterms
  have hhits : Walk.hits (tree.withNextSibling start next) terms = Walk.hits tree terms := by
    refine Walk.hits_congr terms fun term id => ?_
    unfold Term.matchesNode Tree.element?
    rw [Tree.content?_withNextSibling]
  have hposition := Walk.positionBelow_congr terms hhits
  obtain ⟨below, hb, hstart⟩ := hc.exists_unfolds_below hf
  obtain ⟨hunfolds, hnodes⟩ := Walk.unfolds_visitsFrom_of_unfolds hc ⟨start, 0⟩ hb hpos
  have hexpand : ∀ e ∈ Walk.visitsFrom tree terms ⟨start, 0⟩,
      Walk.expand (tree.withNextSibling start next) terms e = Walk.expand tree terms e := by
    intro e he
    have hout : start ∉ tree.linkedChildren e.node := by
      intro hm
      rcases List.mem_cons.mp (hnodes e he) with heq | hin
      · rw [heq] at hm
        exact hstart (hb.subset hm)
      · exact hstart (hb.mem_of_mem_expand hin hm)
    unfold Walk.expand
    rw [hposition, Tree.linkedChildren_withNextSibling next hout]
  have hmem := Walk.mem_entries_of_unfolds hc hunfolds hpos
  have hvisits : Walk.visits (tree.withNextSibling start next) terms start =
      Walk.visits tree terms start := by
    refine Walk.visitsFrom_eq_of_unfolds (hunfolds.congr hexpand) fun e he => ?_
    unfold Walk.entries
    rw [Tree.size_withNextSibling]
    exact hmem e he
  unfold walk Walk.reports
  rw [hvisits, hhits, hposition]

/-- **The walk is the recursive procedure.** For a tree with any history, from any start below which
the links do not lead on for ever, a walk reports what the procedure reports, in the same order and as
often. The position of each entry on its stack is that of a term. The nodes visited are the start and
those below it, and it does not matter which node comes after the start. -/
theorem walk_eq_recursion (h : tree.Built) (hf : tree.FiniteFrom (tree.firstChild? start))
    (hterms : terms ≠ []) (mode : MatchMode) :
    (∀ nodes, Recurses tree terms mode start 0 nodes ↔ nodes = walk tree start terms mode) ∧
    (∀ count, ∀ entry ∈
        (Traversal.steps (Walk.expand tree terms) count ⟨[⟨start, 0⟩], []⟩).pending,
      entry.position < terms.length) ∧
    (∀ entry ∈ Walk.visits tree terms start, tree.LinkedWithin entry.node start) ∧
    ∀ next, walk (tree.withNextSibling start next) start terms mode =
      walk tree start terms mode := by
  have hc := h.closed
  refine ⟨fun nodes => ?_, Walk.position_lt_of_pending tree start hterms,
    Walk.linkedWithin_of_mem_visits hc hf hterms, walk_withNextSibling hc hf hterms mode⟩
  obtain ⟨term, rest, rfl⟩ := List.exists_cons_of_ne_nil hterms
  rw [walk_eq_reportFrom]
  exact Walk.recurses_iff hc hf (Nat.succ_pos _)

/-- The list is no child of the document, but the sibling of one: it is reported a second time. -/
theorem walk_eq_recursion_sharedParagraph :
    sharedParagraph.Built ∧ sharedParagraph.FiniteFrom (sharedParagraph.firstChild? 0) ∧
      [Term.ofName "ul"] ≠ [] ∧ sharedParagraph.children 0 = [1, 2] ∧
      walk sharedParagraph 0 [.ofName "ul"] .strict = [3, 3] ∧
      Recurses sharedParagraph [.ofName "ul"] .strict 0 0 [3, 3] ∧
      ∀ entry ∈ Walk.visits sharedParagraph [.ofName "ul"] 0,
        sharedParagraph.LinkedWithin entry.node 0 := by
  have hp : sharedParagraph.FiniteFrom (some 2) := .some .none (.some .none .none)
  have hf : sharedParagraph.FiniteFrom (sharedParagraph.firstChild? 0) :=
    show sharedParagraph.FiniteFrom (some 1) from .some hp hp
  have hwalk : walk sharedParagraph 0 [.ofName "ul"] .strict = [3, 3] := rfl
  have h := @walk_eq_recursion sharedParagraph [.ofName "ul"] 0 built_sharedParagraph hf
    (List.cons_ne_nil _ _) .strict
  exact ⟨built_sharedParagraph, hf, List.cons_ne_nil _ _, rfl, hwalk, (h.1 _).mpr hwalk.symm,
    h.2.2.1⟩

end DomSelect
