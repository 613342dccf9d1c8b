import DomSelect.Proofs.Query.Walking
import DomSelect.Proofs.Tree.Outlines
import DomSelect.Query.Selection

/-!
# What building changes

Whatever can be asked about a node depends on the nodes at and below it alone (`SameBelow.seenAlike`).
A new node is below no other, and a node that is attached changes one list of children, the one of
its new parent. So the answers about a node stay as they are unless the parent is at or below it; and
there the descendants of the node that is attached take their place right behind those of the parent
(`WellBuilt.building_is_local`).
-/

namespace DomSelect

variable {tree other : Tree} {start node top parent child : NodeId}

namespace Tree

/-! ## Answers about a node -/

/-- At and below `top` the nodes are the same and have the same lists of children. -/
structure SameBelow (tree other : Tree) (top : NodeId) : Prop where
  content? {node : NodeId} : tree.Within node top → other.content? node = tree.content? node
  children {node : NodeId} : tree.Within node top → other.children node = tree.children node

/-- The descendants of a node, its outline and the matches of any chain from it are the same. -/
structure SeenAlike (tree other : Tree) (id : NodeId) : Prop where
  descendants : other.descendants id = tree.descendants id
  outline : other.outline id = tree.outline id
  found (chain : Chain) (mode : MatchMode) :
    (other.findAllFrom id chain mode).map (·.nodes) = (tree.findAllFrom id chain mode).map (·.nodes)

namespace SameBelow

theorem below (hs : tree.SameBelow other top) (hp : tree.parent? node = some top) :
    tree.SameBelow other node where
  content? hw := hs.content? (hw.tail hp)
  children hw := hs.children (hw.tail hp)

theorem lt_size_iff (hs : tree.SameBelow other top) : top < other.size ↔ top < tree.size := by
  have hnone : other.content? top = none ↔ tree.content? top = none := by
    rw [hs.content? (.refl ..)]
  rwa [content?_eq_none_iff, content?_eq_none_iff, ← not_lt, ← not_lt, not_iff_not] at hnone

theorem writes (hs : tree.SameBelow other top) (h : tree.Linked) {level : Nat}
    {entries : List Outline.Entry} {text : String}
    (hw : Outline.Writes tree level [top] entries text) :
    Outline.Writes other level [top] entries text := by
  have htop : ∀ id ∈ [top], tree.Within id top := List.forall_mem_singleton.mpr (.refl ..)
  refine hw.congr htop (fun id hid child hc => ?_) (fun _ => hs.content?) fun _ => hs.children
  exact .head (h.mem_children.mp hc) hid

theorem walk_eq (hs : tree.SameBelow other start) (h : tree.Linked) (h' : other.Linked)
    (terms : List Term) (mode : MatchMode) :
    walk other start terms mode = walk tree start terms mode := by
  induction start using h.induction generalizing terms with
  | step start ih =>
    have hbelow : ∀ left : List Term,
        ((other.children start).flatMap fun child => walk other child left mode) =
          (tree.children start).flatMap fun child => walk tree child left mode := by
      intro left
      rw [hs.children (.refl ..)]
      exact List.flatMap_congr fun child hc => ih child hc (hs.below (h.mem_children.mp hc)) left
    cases terms with
    | nil => rfl
    | cons term rest =>
      have hmatch : term.matchesNode other start = term.matchesNode tree start := by
        unfold Term.matchesNode Tree.element?
        rw [hs.content? (.refl ..)]
      rw [walk_cons h', walk_cons h, hmatch, hbelow, hbelow]

/-- What lies elsewhere in the tree does not show in any answer. -/
theorem seenAlike (hs : tree.SameBelow other top) (h : tree.Linked) (h' : other.Linked) :
    tree.SeenAlike other top := by
  have hiff := hs.lt_size_iff
  by_cases ht : top < tree.size
  · obtain ⟨entries, hw⟩ := h.closed.exists_writes_outline ht (h.acc top)
    have hw' := hs.writes h hw
    refine ⟨?_, hw'.outline_eq h'.closed (hiff.mpr ht), fun chain mode => ?_⟩
    · rw [hw'.descendants_eq h'.closed (hiff.mpr ht), hw.descendants_eq h.closed ht]
    · rw [findAllFrom, findAllFrom, if_pos (contains_iff.mpr ht),
        if_pos (contains_iff.mpr (hiff.mpr ht))]
      exact congrArg Except.ok (hs.walk_eq h h' chain.terms mode)
  · have ht' := mt hiff.mp ht
    have hout := Nat.le_of_not_lt ht
    have hout' := Nat.le_of_not_lt ht'
    refine ⟨?_, ?_, fun chain mode => ?_⟩
    · rw [descendants_of_size_le hout, descendants_of_size_le hout']
    · rw [outline_of_size_le hout, outline_of_size_le hout']
    · rw [findAllFrom, findAllFrom, if_neg (mt contains_iff.mp ht),
        if_neg (mt contains_iff.mp ht')]

end SameBelow

/-! ## A new node -/

theorem Linked.sameBelow_alloc (h : tree.Linked) (ht : top < tree.size) (content : Content) :
    tree.SameBelow (tree.alloc content) top where
  content? hw := by
    rw [content?_alloc, if_neg (Nat.ne_of_lt (h.within_lt ht hw))]
  children _ := children_alloc ..

/-! ## A node attached -/

theorem sameBelow_append (hp : parent < tree.size) (child : NodeId)
    (hout : ¬ tree.Within parent top) : tree.SameBelow (tree.append parent child) top where
  content? _ := content?_append ..
  children {node} hw := by
    rw [children_append hp, if_neg]
    rintro rfl
    exact hout hw

/-- The descendants of the node that is attached come right behind those of its parent. -/
theorem Linked.descendants_append (h : tree.Linked) (h' : (tree.append parent child).Linked)
    (hp : parent < tree.size) (hout : ¬ tree.Within parent child)
    (hw : tree.Within parent top) :
    ∃ before behind, tree.descendants top = before ++ tree.descendants parent ++ behind ∧
      (tree.append parent child).descendants top =
        before ++ tree.descendants parent ++ tree.descendants child ++ behind := by
  have hsize : (tree.append parent child).size = tree.size := size_append ..
  have hsame : ∀ {id}, ¬ tree.Within parent id →
      (tree.append parent child).descendants id = tree.descendants id := fun hid =>
    ((sameBelow_append hp child hid).seenAlike h h').descendants
  -- the chain of parents from the parent of the new child up to the node
  induction hw with
  | refl =>
    have hbelow : ∀ id ∈ tree.children parent,
        (tree.append parent child).descendants id = tree.descendants id := by
      intro id hid
      refine hsame fun hw => h.acyclic parent (hw.trans_below (.single ?_))
      exact h.mem_children.mp hid
    refine ⟨[], [], by simp, ?_⟩
    rw [h'.descendants_eq (hsize ▸ hp), h.descendants_eq hp, children_append hp, if_pos rfl,
      List.flatMap_append, List.flatMap_congr hbelow, List.flatMap_singleton, hsame hout]
    simp
  | @tail inner top hw hinner ih =>
    obtain ⟨before, behind, hold, hnew⟩ := ih
    have ht : top < tree.size := h.parent_lt hinner
    have hne : parent ≠ top := by
      rintro rfl
      exact h.acyclic parent (Within.trans_below hw (.single hinner))
    obtain ⟨front, back, hsplit⟩ := List.append_of_mem (h.mem_children.mpr hinner)
    have hnodup := h.nodup top
    rw [hsplit] at hnodup
    obtain ⟨-, hnodup, hfront⟩ := List.nodup_append.mp hnodup
    -- the parent is within one child only, so nothing is new within the others
    have hother : ∀ id ∈ tree.children top, id ≠ inner →
        (tree.append parent child).descendants id = tree.descendants id := fun id hid hne =>
      hsame fun hw' => hne (h.eq_of_within_children (h.mem_children.mp hid) hinner hw' hw)
    have hbefore : front.flatMap (tree.append parent child).descendants =
        front.flatMap tree.descendants := by
      refine List.flatMap_congr fun id hid => hother id ?_ (hfront id hid inner List.mem_cons_self)
      rw [hsplit]
      exact List.mem_append_left _ hid
    have hbehind : back.flatMap (tree.append parent child).descendants =
        back.flatMap tree.descendants := by
      refine List.flatMap_congr fun id hid => hother id ?_ ?_
      · rw [hsplit]
        exact List.mem_append_right _ (List.mem_cons_of_mem _ hid)
      · rintro rfl
        exact (List.nodup_cons.mp hnodup).1 hid
    refine ⟨top :: front.flatMap tree.descendants ++ before,
      behind ++ back.flatMap tree.descendants, ?_, ?_⟩
    · rw [h.descendants_eq ht, hsplit, List.flatMap_append, List.flatMap_cons, hold]
      simp only [List.cons_append, List.append_assoc]
    · rw [h'.descendants_eq (hsize ▸ ht), children_append hp, if_neg hne, hsplit,
        List.flatMap_append, List.flatMap_cons, hbefore, hbehind, hnew]
      simp only [List.cons_append, List.append_assoc]

/-- **Building is local.** In a tree with a disciplined history, making a node changes no answer
about an older one. Attaching a node changes none about a node that is neither its new parent nor
above it, such as the node itself and the child that was the last one. For the parent and each node
above it, the descendants of the node attached are put in right behind those of the parent. -/
theorem WellBuilt.building_is_local (h : tree.WellBuilt) :
    (∀ content id, tree.contains id = true → tree.SeenAlike (tree.alloc content) id) ∧
    ∀ parent child after, tree.parent? child = none → parent ≠ child →
      tree.isDescendantOf parent child = false → tree.append? parent child = some after →
      (∀ id, ¬ (parent = id ∨ tree.isDescendantOf parent id = true) → tree.SeenAlike after id) ∧
      (∀ id, id = child ∨ tree.lastChild? parent = some id → tree.SeenAlike after id) ∧
      ∀ id, parent = id ∨ tree.isDescendantOf parent id = true →
        ∃ before behind, tree.descendants id = before ++ tree.descendants parent ++ behind ∧
          after.descendants id =
            before ++ tree.descendants parent ++ tree.descendants child ++ behind := by
  have hl := h.linked
  have hwithin : ∀ {low high}, tree.Within low high ↔
      low = high ∨ tree.isDescendantOf low high = true := fun {low high} => by
    rw [within_iff, hl.isDescendantOf_iff]
  constructor
  · intro content id hid
    exact (hl.sameBelow_alloc (contains_iff.mp hid) content).seenAlike hl (h.alloc content).linked
  · intro parent child after horphan hne houtside hattached
    have hl' := (WellBuilt.append h horphan hne houtside hattached).linked
    obtain ⟨hp, -, rfl⟩ := append?_eq_some_iff.mp hattached
    have hchild : ¬ tree.Within parent child := by
      rw [hwithin, houtside]
      exact fun hor => hor.elim hne Bool.false_ne_true
    have hsame : ∀ id, ¬ tree.Within parent id → tree.SeenAlike (tree.append parent child) id :=
      fun id hid => (sameBelow_append hp child hid).seenAlike hl hl'
    refine ⟨fun id hid => hsame id (mt hwithin.mp hid), fun id hid => hsame id ?_, fun id hid => ?_⟩
    · rcases hid with rfl | hlast
      · exact hchild
      · rw [lastChild?_eq_getLast?] at hlast
        have hbelow := hl.mem_children.mp (List.mem_of_getLast? hlast)
        exact fun hw => hl.acyclic parent (hw.trans_below (.single hbelow))
    · exact hl.descendants_append hl' hp hchild (hwithin.mpr hid)

/-- The late division behind a division with a text, and a list with an item that is not attached. -/
def looseList : Tree :=
  (((lateDivision.addChild 3 (.text "first")).alloc (.element ⟨"ul", []⟩)).addChild 5
    (.element ⟨"li", []⟩))

theorem wellBuilt_looseList : looseList.WellBuilt :=
  ((wellBuilt_lateDivision.addChild (by decide) _).alloc _).addChild (by decide) _

/-- The list is attached behind the text, in front of the late division. -/
theorem building_is_local_looseList :
    looseList.WellBuilt ∧ looseList.contains 0 = true ∧
      looseList.SeenAlike (looseList.alloc (.comment "end")) 0 ∧
      looseList.parent? 5 = none ∧ looseList.isDescendantOf 3 5 = false ∧
      looseList.append? 3 5 = some (looseList.append 3 5) ∧
      looseList.SeenAlike (looseList.append 3 5) 5 ∧ looseList.lastChild? 3 = some 4 ∧
      looseList.SeenAlike (looseList.append 3 5) 4 ∧ looseList.SeenAlike (looseList.append 3 5) 1 ∧
      (looseList.append 3 5).descendants 0 = [0, 3, 4, 5, 6, 1, 2] ∧
      ∃ before behind, [0, 3, 4, 1, 2] = before ++ [3, 4] ++ behind ∧
        (looseList.append 3 5).descendants 0 = before ++ [3, 4] ++ [5, 6] ++ behind := by
  obtain ⟨halloc, happend⟩ := wellBuilt_looseList.building_is_local
  obtain ⟨hsame, hnear, hsplice⟩ := happend 3 5 _ rfl (by decide) (by decide) rfl
  exact ⟨wellBuilt_looseList, rfl, halloc _ 0 rfl, rfl, by decide, rfl, hnear 5 (.inl rfl), rfl,
    hnear 4 (.inr rfl), hsame 1 (by decide), rfl, hsplice 0 (.inr (by decide))⟩

end Tree

end DomSelect
