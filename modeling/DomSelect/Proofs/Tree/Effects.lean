import DomSelect.Tree.Basic

/-!
# What building does to the links

A new node has no links and changes none. Attaching `child` to `parent` adds to one list of
children, sets one parent, and makes `child` the next sibling of the former last child; every other
link stays.
-/

namespace DomSelect.Tree

variable {tree : Tree} {id parent child : NodeId}

/-! ## Links through nodes -/

theorem node?_eq_none_iff : tree.node? id = none ↔ tree.size ≤ id := Array.getElem?_eq_none_iff

theorem lt_size_of_node? {node : Node} (h : tree.node? id = some node) : id < tree.size := by
  refine Nat.lt_of_not_le fun hle => ?_
  rw [node?_eq_none_iff.mpr hle] at h
  cases h

theorem lt_size_of_element? {element : Element} (h : tree.element? id = some element) :
    id < tree.size := by
  cases hn : tree.node? id with
  | none => simp [element?, content?, hn] at h
  | some node => exact lt_size_of_node? hn

theorem children_of_size_le (h : tree.size ≤ id) : tree.children id = [] := by
  rw [children, node?_eq_none_iff.mpr h]; rfl

theorem parent?_of_size_le (h : tree.size ≤ id) : tree.parent? id = none := by
  rw [parent?, node?_eq_none_iff.mpr h]; rfl

theorem firstChild?_eq_head? (tree : Tree) (id : NodeId) :
    tree.firstChild? id = (tree.children id).head? := by
  unfold firstChild? children
  cases tree.node? id <;> rfl

theorem lastChild?_eq_getLast? (tree : Tree) (id : NodeId) :
    tree.lastChild? id = (tree.children id).getLast? := by
  unfold lastChild? children
  cases tree.node? id <;> rfl

/-! ## The document alone -/

theorem node?_initial (id : NodeId) :
    initial.node? id = if id = 0 then some (Node.detached .document) else none := by
  cases id <;> rfl

@[simp] theorem children_initial (id : NodeId) : initial.children id = [] := by
  rw [children, node?_initial]; split <;> rfl

@[simp] theorem parent?_initial (id : NodeId) : initial.parent? id = none := by
  rw [parent?, node?_initial]; split <;> rfl

@[simp] theorem nextSibling?_initial (id : NodeId) : initial.nextSibling? id = none := by
  rw [nextSibling?, node?_initial]; split <;> rfl

/-! ## A new node -/

theorem node?_alloc (tree : Tree) (content : Content) (id : NodeId) :
    (tree.alloc content).node? id =
      if id = tree.size then some (Node.detached content) else tree.node? id :=
  Array.getElem?_push

@[simp] theorem children_alloc (tree : Tree) (content : Content) (id : NodeId) :
    (tree.alloc content).children id = tree.children id := by
  unfold children
  rw [node?_alloc]
  split
  · next h => rw [node?_eq_none_iff.mpr (Nat.le_of_eq h.symm)]; rfl
  · rfl

@[simp] theorem parent?_alloc (tree : Tree) (content : Content) (id : NodeId) :
    (tree.alloc content).parent? id = tree.parent? id := by
  unfold parent?
  rw [node?_alloc]
  split
  · next h => rw [node?_eq_none_iff.mpr (Nat.le_of_eq h.symm)]; rfl
  · rfl

@[simp] theorem nextSibling?_alloc (tree : Tree) (content : Content) (id : NodeId) :
    (tree.alloc content).nextSibling? id = tree.nextSibling? id := by
  unfold nextSibling?
  rw [node?_alloc]
  split
  · next h => rw [node?_eq_none_iff.mpr (Nat.le_of_eq h.symm)]; rfl
  · rfl

theorem content?_alloc (tree : Tree) (content : Content) (id : NodeId) :
    (tree.alloc content).content? id = if id = tree.size then some content else tree.content? id := by
  unfold content?
  rw [node?_alloc]
  split <;> rfl

/-! ## A node attached -/

theorem node?_modify (tree : Tree) (changed : NodeId) (change : Node → Node) (id : NodeId) :
    (tree.modify changed change).node? id =
      if changed = id then (tree.node? id).map change else tree.node? id :=
  Array.getElem?_modify

theorem node?_linkSibling (tree : Tree) (previous : Option NodeId) (next id : NodeId) :
    (tree.linkSibling previous next).node? id =
      (tree.node? id).map fun node =>
        if previous = some id then { node with nextSibling := some next } else node := by
  cases previous with
  | none => simp [linkSibling]
  | some last =>
    rw [linkSibling, node?_modify]
    by_cases h : last = id
    · subst h; simp
    · rw [if_neg h]; simp [h]

/-- Attaching a node changes three links and no more. -/
theorem node?_append (tree : Tree) (parent child id : NodeId) :
    (tree.append parent child).node? id =
      (tree.node? id).map fun node =>
        { content := node.content
          parent := if child = id then some parent else node.parent
          children := if parent = id then node.children ++ [child] else node.children
          nextSibling := if tree.lastChild? parent = some id then some child
            else node.nextSibling } := by
  unfold append
  rw [node?_linkSibling, node?_modify, node?_modify]
  generalize tree.lastChild? parent = last
  cases tree.node? id with
  | none => simp
  | some node =>
    by_cases hp : parent = id <;> by_cases hc : child = id <;> by_cases hl : last = some id <;>
      simp [hp, hc, hl]

theorem children_append (hp : parent < tree.size) (child id : NodeId) :
    (tree.append parent child).children id =
      if parent = id then tree.children id ++ [child] else tree.children id := by
  unfold children
  rw [node?_append]
  cases h : tree.node? id with
  | none =>
    rw [if_neg (Nat.ne_of_lt (Nat.lt_of_lt_of_le hp (node?_eq_none_iff.mp h)))]
    rfl
  | some node => by_cases he : parent = id <;> simp [he]

theorem parent?_append (hc : child < tree.size) (parent id : NodeId) :
    (tree.append parent child).parent? id =
      if child = id then some parent else tree.parent? id := by
  unfold parent?
  rw [node?_append]
  cases h : tree.node? id with
  | none =>
    rw [if_neg (Nat.ne_of_lt (Nat.lt_of_lt_of_le hc (node?_eq_none_iff.mp h)))]
    rfl
  | some node => by_cases he : child = id <;> simp [he]

theorem nextSibling?_append (tree : Tree) (parent child id : NodeId) :
    (tree.append parent child).nextSibling? id =
      if tree.lastChild? parent = some id ∧ id < tree.size then some child
      else tree.nextSibling? id := by
  unfold nextSibling?
  rw [node?_append]
  cases h : tree.node? id with
  | none =>
    rw [if_neg fun hl => Nat.not_lt.mpr (node?_eq_none_iff.mp h) hl.2]
    rfl
  | some node =>
    have hlt : id < tree.size := lt_size_of_node? h
    by_cases he : tree.lastChild? parent = some id <;> simp [he, hlt]

@[simp] theorem content?_append (tree : Tree) (parent child id : NodeId) :
    (tree.append parent child).content? id = tree.content? id := by
  unfold content?
  rw [node?_append]
  cases tree.node? id <;> rfl

theorem append?_eq_some_iff {after : Tree} :
    tree.append? parent child = some after ↔
      parent < tree.size ∧ child < tree.size ∧ tree.append parent child = after := by
  unfold append?
  split
  · next h =>
    obtain ⟨hp, hc⟩ := (Bool.and_eq_true ..).mp h
    rw [contains_iff] at hp hc
    simp [hp, hc]
  · next h =>
    refine iff_of_false nofun fun ⟨hp, hc, _⟩ => h ?_
    rw [contains_iff.mpr hp, contains_iff.mpr hc]
    rfl

/-! ## A new child -/

theorem content?_addChild (tree : Tree) (parent : NodeId) (content : Content) (id : NodeId) :
    (tree.addChild parent content).content? id =
      if id = tree.size then some content else tree.content? id := by
  rw [addChild, content?_append, content?_alloc]

theorem children_addChild (hp : parent < tree.size) (content : Content) (id : NodeId) :
    (tree.addChild parent content).children id =
      if parent = id then tree.children id ++ [tree.size] else tree.children id := by
  have hp' : parent < (tree.alloc content).size := by rw [size_alloc]; exact Nat.lt_succ_of_lt hp
  rw [addChild, children_append hp', children_alloc]

theorem parent?_addChild (tree : Tree) (parent : NodeId) (content : Content) (id : NodeId) :
    (tree.addChild parent content).parent? id =
      if tree.size = id then some parent else tree.parent? id := by
  have hc : tree.size < (tree.alloc content).size := by rw [size_alloc]; exact Nat.lt_succ_self _
  rw [addChild, parent?_append hc, parent?_alloc]

end DomSelect.Tree
