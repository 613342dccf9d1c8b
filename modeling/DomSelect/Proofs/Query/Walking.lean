import DomSelect.Proofs.Tree.Descendants
import DomSelect.Proofs.Tree.Histories
import DomSelect.Query.Walk
import Mathlib.Data.Finset.Prod

/-!
# Walks as recursions

Where the links below a node do not lead on for ever, the entries of a walk unfold
(`Walk.unfolds_visitsFrom`): each entry is visited before the entries of its children
(`Walk.reportFrom_eq`).

On a linked tree, what is reported from an entry on depends on the terms that are still to be matched
alone (`Walk.reportFrom_eq_walk`). This gives walks an equation without positions, `walk_cons`: a
node is tried against the first term, and its children are walked with the other terms if it matches
and with all terms if it does not.
-/

namespace DomSelect

open DomSelect.Preorder (Unfolds)

variable {tree : Tree} {terms rest : List Term} {term : Term} {mode : MatchMode}
  {node start : NodeId}

namespace Walk

/-- The entries of a walk from any entry on. -/
def visitsFrom (tree : Tree) (terms : List Term) (entry : Entry) : List Entry :=
  Preorder.order (expand tree terms)
    (Preorder.leapLimit (tree.size * terms.length + 1) tree.size) entry

/-- What a walk reports from an entry on. -/
def reportFrom (tree : Tree) (terms : List Term) (mode : MatchMode) (entry : Entry) :
    List NodeId :=
  ((visitsFrom tree terms entry).filter (reports tree terms mode)).map (·.node)

/-! ## Entries -/

theorem positionBelow_le (tree : Tree) {entry : Entry} (hp : entry.position < terms.length) :
    positionBelow tree terms entry ≤ terms.length := by
  unfold positionBelow
  split <;> omega

theorem length_expand_le (tree : Tree) (terms : List Term) (entry : Entry) :
    (expand tree terms entry).length ≤ tree.size := by
  unfold expand
  simp only
  split
  · exact Nat.zero_le _
  · rw [List.length_map]
    exact Tree.length_follow_le ..

/-- An entry with the position of a term expands to such entries. -/
theorem mem_expand {entry below : Entry} (hb : below ∈ expand tree terms entry)
    (hp : entry.position < terms.length) :
    below.node ∈ tree.linkedChildren entry.node ∧
      below.position = positionBelow tree terms entry ∧ below.position < terms.length := by
  unfold expand at hb
  simp only at hb
  split at hb
  · exact absurd hb List.not_mem_nil
  · next hne =>
    obtain ⟨child, hc, rfl⟩ := List.mem_map.mp hb
    have := positionBelow_le tree hp
    exact ⟨hc, rfl, by simp only; omega⟩

/-- Every entry that a walk can visit behind its start. -/
def entries (tree : Tree) (terms : List Term) : Finset Entry :=
  (Finset.range tree.size ×ˢ Finset.range terms.length).image fun pair => ⟨pair.1, pair.2⟩

theorem mem_entries {entry : Entry} :
    entry ∈ entries tree terms ↔ entry.node < tree.size ∧ entry.position < terms.length := by
  obtain ⟨node, position⟩ := entry
  simp [entries]

theorem card_insert_entries_le (tree : Tree) (terms : List Term) (entry : Entry) :
    (insert entry (entries tree terms)).card ≤ tree.size * terms.length + 1 := by
  refine (Finset.card_insert_le ..).trans (Nat.succ_le_succ (Finset.card_image_le.trans ?_))
  rw [Finset.card_product, Finset.card_range, Finset.card_range]

/-! ## Unfolding -/

/-- The limit of a walk is never reached if its entries unfold. -/
theorem visitsFrom_eq_of_unfolds {entry : Entry} {order : List Entry}
    (h : Unfolds (expand tree terms) [entry] order)
    (hmem : ∀ e ∈ order, e ∈ insert entry (entries tree terms)) :
    visitsFrom tree terms entry = order :=
  h.order_eq (fun e _ => length_expand_le tree terms e) _ hmem
    (card_insert_entries_le tree terms entry)

/-- An entry expands to nothing or to entries of all children of its node. -/
theorem map_node_expand (tree : Tree) (terms : List Term) (entry : Entry) :
    expand tree terms entry = [] ∨
      (expand tree terms entry).map (·.node) = tree.linkedChildren entry.node := by
  unfold expand
  simp only
  split
  · exact .inl rfl
  · rw [List.map_map]
    exact .inr (List.map_id _)

theorem mem_entries_of_unfolds (hc : tree.Closed) {entry : Entry} {order : List Entry}
    (h : Unfolds (expand tree terms) [entry] order) (hp : entry.position < terms.length) :
    ∀ e ∈ order, e ∈ insert entry (entries tree terms) := by
  refine h.forall_mem (List.forall_mem_singleton.mpr (Finset.mem_insert_self ..)) ?_
  intro e he below hb
  have hlt : e.position < terms.length := by
    rcases Finset.mem_insert.mp he with rfl | he
    · exact hp
    · exact (mem_entries.mp he).2
  obtain ⟨hchild, -, hlt⟩ := mem_expand hb hlt
  exact Finset.mem_insert_of_mem (mem_entries.mpr ⟨hc.lt_of_mem_linkedChildren hchild, hlt⟩)

/-- The entries of a walk unfold, and their nodes are met where the children unfold. -/
theorem unfolds_visitsFrom_of_unfolds (hc : tree.Closed) (entry : Entry) {below : List NodeId}
    (hb : Unfolds tree.linkedChildren (tree.linkedChildren entry.node) below)
    (hp : entry.position < terms.length) :
    Unfolds (expand tree terms) [entry] (visitsFrom tree terms entry) ∧
      ∀ e ∈ visitsFrom tree terms entry, e.node ∈ entry.node :: below := by
  obtain ⟨order, ho, hnodes⟩ :=
    hb.singleton.exists_lift (·.node) (map_node_expand tree terms) [entry] rfl
  rw [visitsFrom_eq_of_unfolds ho (mem_entries_of_unfolds hc ho hp)]
  exact ⟨ho, fun e he => hnodes.subset (List.mem_map_of_mem he)⟩

theorem unfolds_visitsFrom (hc : tree.Closed) {entry : Entry}
    (hf : tree.FiniteFrom (tree.firstChild? entry.node)) (hp : entry.position < terms.length) :
    Unfolds (expand tree terms) [entry] (visitsFrom tree terms entry) := by
  obtain ⟨below, hb, -⟩ := hc.exists_unfolds_below hf
  exact (unfolds_visitsFrom_of_unfolds hc entry hb hp).1

theorem visitsFrom_eq (hc : tree.Closed) {entry : Entry}
    (hf : tree.FiniteFrom (tree.firstChild? entry.node)) (hp : entry.position < terms.length) :
    visitsFrom tree terms entry =
      entry :: (expand tree terms entry).flatMap (visitsFrom tree terms) := by
  refine (unfolds_visitsFrom hc hf hp).unique (.singleton (.flatMap fun below hb => ?_))
  obtain ⟨hchild, -, hlt⟩ := mem_expand hb hp
  exact unfolds_visitsFrom hc (hc.finiteFrom_of_mem_linkedChildren hf hchild) hlt

/-- A report is the entry itself, if it counts, and then the reports from its children on. -/
theorem reportFrom_eq (hc : tree.Closed) {entry : Entry}
    (hf : tree.FiniteFrom (tree.firstChild? entry.node)) (hp : entry.position < terms.length) :
    reportFrom tree terms mode entry =
      (if reports tree terms mode entry then [entry.node] else []) ++
        if positionBelow tree terms entry = terms.length then []
        else (tree.linkedChildren entry.node).flatMap fun child =>
          reportFrom tree terms mode ⟨child, positionBelow tree terms entry⟩ := by
  have hrest : (((expand tree terms entry).flatMap (visitsFrom tree terms)).filter
      (reports tree terms mode)).map (·.node) =
        if positionBelow tree terms entry = terms.length then []
        else (tree.linkedChildren entry.node).flatMap fun child =>
          reportFrom tree terms mode ⟨child, positionBelow tree terms entry⟩ := by
    rw [List.filter_flatMap, List.map_flatMap]
    unfold expand
    simp only
    split
    · rfl
    · rw [List.flatMap_map]
      rfl
  rw [← hrest, reportFrom, visitsFrom_eq hc hf hp, List.filter_cons]
  split <;> simp

/-- The same with the term of the entry written out. -/
theorem reportFrom_of_getElem? (hc : tree.Closed) (hf : tree.FiniteFrom (tree.firstChild? node))
    {position : Nat} {term : Term} (hterm : terms[position]? = some term) :
    reportFrom tree terms mode ⟨node, position⟩ =
      if term.matchesNode tree node then
        (if mode = .inclusive ∨ position + 1 = terms.length then [node] else []) ++
          if position + 1 = terms.length then []
          else (tree.linkedChildren node).flatMap fun child =>
            reportFrom tree terms mode ⟨child, position + 1⟩
      else (tree.linkedChildren node).flatMap fun child =>
        reportFrom tree terms mode ⟨child, position⟩ := by
  obtain ⟨hp, -⟩ := List.getElem?_eq_some_iff.mp hterm
  have hhits : hits tree terms ⟨node, position⟩ = term.matchesNode tree node := by
    unfold hits
    rw [hterm]
    rfl
  rw [reportFrom_eq hc hf hp]
  unfold reports positionBelow
  rw [hhits]
  by_cases hm : term.matchesNode tree node = true
  · simp [hm]
  · simp [hm, Nat.ne_of_lt hp]

/-- The same with the terms that are left at the entry written out. -/
theorem reportFrom_cons (hc : tree.Closed) (hf : tree.FiniteFrom (tree.firstChild? node))
    {position : Nat} {term : Term} {rest : List Term} (hd : terms.drop position = term :: rest) :
    reportFrom tree terms mode ⟨node, position⟩ =
      if term.matchesNode tree node then
        (if mode = .inclusive ∨ rest = [] then [node] else []) ++
          if rest = [] then []
          else (tree.linkedChildren node).flatMap fun child =>
            reportFrom tree terms mode ⟨child, position + 1⟩
      else (tree.linkedChildren node).flatMap fun child =>
        reportFrom tree terms mode ⟨child, position⟩ := by
  have hterm : terms[position]? = some term := by
    rw [← List.head?_drop, hd]
    rfl
  have hlast : position + 1 = terms.length ↔ rest = [] := by
    have hlen := congrArg List.length hd
    rw [List.length_drop, List.length_cons] at hlen
    rw [← List.length_eq_zero_iff]
    omega
  rw [reportFrom_of_getElem? hc hf hterm]
  simp only [hlast]

end Walk

/-! ## The equation of a walk -/

theorem walk_nil (tree : Tree) (node : NodeId) (mode : MatchMode) : walk tree node [] mode = [] :=
  rfl

theorem walk_eq_reportFrom (tree : Tree) (node : NodeId) (term : Term) (rest : List Term)
    (mode : MatchMode) :
    walk tree node (term :: rest) mode = Walk.reportFrom tree (term :: rest) mode ⟨node, 0⟩ := rfl

/-- What is reported from an entry on depends on the terms that are left there alone. -/
theorem Walk.reportFrom_eq_walk (h : tree.Linked) {position : Nat} {term : Term} {rest : List Term}
    (hd : terms.drop position = term :: rest) :
    reportFrom tree terms mode ⟨node, position⟩ = walk tree node (term :: rest) mode := by
  -- both sides are opened at the same node, and their children agree with the walk from there
  induction node using h.induction generalizing terms position term rest with
  | step node ih =>
    have hnext : terms.drop (position + 1) = rest := by rw [← List.drop_drop, hd]; rfl
    rw [walk_eq_reportFrom, reportFrom_cons h.closed (h.finiteFrom node) hd,
      reportFrom_cons h.closed (h.finiteFrom node) (List.drop_zero ..), h.linkedChildren_eq]
    by_cases hm : term.matchesNode tree node = true
    · rw [if_pos hm, if_pos hm]
      cases rest with
      | nil => rfl
      | cons next others =>
        rw [if_neg (List.cons_ne_nil _ _), if_neg (List.cons_ne_nil _ _)]
        refine congrArg _ (List.flatMap_congr fun child hc => ?_)
        rw [ih child hc hnext, ih child hc rfl]
    · rw [if_neg hm, if_neg hm]
      refine List.flatMap_congr fun child hc => ?_
      rw [ih child hc hd, walk_eq_reportFrom]

/-- **Walks as recursions.** A node that matches the first term is reported, in strict mode only if
there is no other term, and its children are walked with the other terms. Below a node that does not
match, all terms are still to be matched. -/
theorem walk_cons (h : tree.Linked) (term : Term) (rest : List Term) (mode : MatchMode) :
    walk tree node (term :: rest) mode =
      if term.matchesNode tree node then
        (if mode = .inclusive ∨ rest = [] then [node] else []) ++
          (tree.children node).flatMap fun child => walk tree child rest mode
      else (tree.children node).flatMap fun child => walk tree child (term :: rest) mode := by
  rw [walk_eq_reportFrom, Walk.reportFrom_cons h.closed (h.finiteFrom node) (List.drop_zero ..),
    h.linkedChildren_eq]
  by_cases hm : term.matchesNode tree node = true
  · rw [if_pos hm, if_pos hm]
    cases rest with
    | nil => simp [walk_nil]
    | cons next others =>
      rw [if_neg (List.cons_ne_nil _ _)]
      exact congrArg _ (List.flatMap_congr fun child _ => Walk.reportFrom_eq_walk h rfl)
  · rw [if_neg hm, if_neg hm]
    exact List.flatMap_congr fun child _ => rfl

/-! ## What is reported -/

theorem mem_walk_of_matches (h : tree.Linked) (hm : term.matchesNode tree start = true) :
    node ∈ walk tree start (term :: rest) mode ↔
      (node = start ∧ (mode = .inclusive ∨ rest = [])) ∨
        ∃ child ∈ tree.children start, node ∈ walk tree child rest mode := by
  rw [walk_cons h, if_pos hm, List.mem_append, List.mem_flatMap]
  split
  · next hr => simp [hr]
  · next hr => simp [hr]

theorem mem_walk_of_not_matches (h : tree.Linked) (hm : ¬ term.matchesNode tree start = true) :
    node ∈ walk tree start (term :: rest) mode ↔
      ∃ child ∈ tree.children start, node ∈ walk tree child (term :: rest) mode := by
  rw [walk_cons h, if_neg hm, List.mem_flatMap]

/-- A walk reports elements only, and each of them matches a term. -/
theorem exists_match_of_mem_walk (hn : node ∈ walk tree start terms mode) :
    ∃ element, tree.element? node = some element ∧
      ∃ term ∈ terms, term.matchesElement element = true := by
  unfold walk at hn
  split at hn
  · exact absurd hn List.not_mem_nil
  · obtain ⟨entry, he, rfl⟩ := List.mem_map.mp hn
    obtain ⟨hhits, -⟩ := (Bool.and_eq_true ..).mp (List.mem_filter.mp he).2
    obtain ⟨term, hterm, hm⟩ := (Option.any_eq_true ..).mp hhits
    obtain ⟨element, hsome, hmatch⟩ := (Option.any_eq_true ..).mp hm
    exact ⟨element, hsome, term, List.mem_of_getElem? hterm, hmatch⟩

theorem exists_element_of_mem_walk (hn : node ∈ walk tree start terms mode) :
    ∃ element, tree.element? node = some element := by
  obtain ⟨element, hsome, -⟩ := exists_match_of_mem_walk hn
  exact ⟨element, hsome⟩

/-- A walk reports descendants of its start, in tree order. -/
theorem walk_sublist_descendants (h : tree.Linked) (hs : start < tree.size) (terms : List Term)
    (mode : MatchMode) : (walk tree start terms mode).Sublist (tree.descendants start) := by
  induction start using h.induction generalizing terms with
  | step start ih =>
    have hbelow : ∀ left : List Term,
        ((tree.children start).flatMap fun child => walk tree child left mode).Sublist
          ((tree.children start).flatMap tree.descendants) :=
      fun left => List.Sublist.flatMap_right _ fun child hc =>
        ih child hc (Tree.Linked.child_lt (h.mem_children.mp hc)) left
    rw [h.descendants_eq hs]
    cases terms with
    | nil =>
      rw [walk_nil]
      exact List.nil_sublist _
    | cons term rest =>
      rw [walk_cons h]
      split
      · split
        · exact (hbelow rest).cons_cons start
        · exact (hbelow rest).cons start
      · exact (hbelow (term :: rest)).cons start

theorem within_of_mem_walk (h : tree.Linked) (hs : start < tree.size)
    (hn : node ∈ walk tree start terms mode) : tree.Within node start :=
  (h.mem_descendants_iff hs).mp ((walk_sublist_descendants h hs terms mode).subset hn)

/-- Whatever a strict walk reports an inclusive one reports as well. -/
theorem walk_strict_sublist_inclusive (tree : Tree) (start : NodeId) (terms : List Term) :
    (walk tree start terms .strict).Sublist (walk tree start terms .inclusive) := by
  unfold walk
  split
  · exact List.Sublist.refl _
  · refine (List.monotone_filter_right _ fun entry hr => ?_).map _
    obtain ⟨hhits, -⟩ := (Bool.and_eq_true ..).mp hr
    simp [Walk.reports, hhits]

end DomSelect
