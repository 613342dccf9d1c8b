import DomSelect.Tree.Element

/-!
# Document trees

The nodes of a tree are numbered in the order in which they were made; node 0 is the document. A
node knows its parent, the list of its children and its next sibling. A new node is not attached;
`append?` makes a node the last child of another one, and leaves every older link of it in place.

A tree thus has two views of the children of a node: the list `children`, and the chain that
starts at `firstChild?` and goes on along `nextSibling?` (`linkedChildren`).
-/

namespace DomSelect

/-- The number of a node. -/
abbrev NodeId := Nat

/-- What a node is. -/
inductive Content where
  | document
  | element (data : Element)
  | text (data : String)
  | comment (data : String)
  deriving DecidableEq, Repr, Inhabited

/-- A node with its links. -/
structure Node where
  content : Content
  parent : Option NodeId
  children : List NodeId
  nextSibling : Option NodeId
  deriving DecidableEq, Repr, Inhabited

/-- A node without links. -/
def Node.detached (content : Content) : Node := ⟨content, none, [], none⟩

/-- Nodes with links between them. -/
structure Tree where
  nodes : Array Node
  deriving DecidableEq, Repr, Inhabited

namespace Tree

/-- The tree with the document only. -/
def initial : Tree := ⟨#[Node.detached .document]⟩

/-- The document. -/
def root : NodeId := 0

/-- Number of nodes. -/
def size (tree : Tree) : Nat := tree.nodes.size

/-- Whether there are no nodes at all. -/
def isEmpty (tree : Tree) : Bool := tree.nodes.isEmpty

/-- Whether the number belongs to a node. -/
def contains (tree : Tree) (id : NodeId) : Bool := id < tree.size

/-- The node of this number. -/
def node? (tree : Tree) (id : NodeId) : Option Node := tree.nodes[id]?

/-! ## Building -/

/-- The tree with one more node, detached, whose number is the old size. -/
def alloc (tree : Tree) (content : Content) : Tree := ⟨tree.nodes.push (Node.detached content)⟩

/-- Change one node. -/
def modify (tree : Tree) (id : NodeId) (change : Node → Node) : Tree :=
  ⟨tree.nodes.modify id change⟩

/-- The last of the children of a node. -/
def lastChild? (tree : Tree) (id : NodeId) : Option NodeId :=
  (tree.node? id).bind (·.children.getLast?)

/-- Make `next` the next sibling of a node, if there is one. -/
def linkSibling (tree : Tree) (previous : Option NodeId) (next : NodeId) : Tree :=
  match previous with
  | none => tree
  | some id => tree.modify id fun node => { node with nextSibling := some next }

/-- Make `child` the last child of `parent`, both being nodes of the tree. -/
def append (tree : Tree) (parent child : NodeId) : Tree :=
  let previous := tree.lastChild? parent
  ((tree.modify parent fun node => { node with children := node.children ++ [child] }).modify child
    fun node => { node with parent := some parent }).linkSibling previous child

/-- Make `child` the last child of `parent`; `none` if one of them is no node of the tree. -/
def append? (tree : Tree) (parent child : NodeId) : Option Tree :=
  if tree.contains parent && tree.contains child then some (tree.append parent child) else none

/-- The tree with a new last child of `parent`. -/
def addChild (tree : Tree) (parent : NodeId) (content : Content) : Tree :=
  (tree.alloc content).append parent tree.size

theorem contains_iff {tree : Tree} {id : NodeId} : tree.contains id = true ↔ id < tree.size :=
  decide_eq_true_iff

@[simp] theorem size_initial : initial.size = 1 := rfl

@[simp] theorem size_alloc (tree : Tree) (content : Content) :
    (tree.alloc content).size = tree.size + 1 := Array.size_push _

@[simp] theorem size_modify (tree : Tree) (id : NodeId) (change : Node → Node) :
    (tree.modify id change).size = tree.size := Array.size_modify

@[simp] theorem size_linkSibling (tree : Tree) (previous : Option NodeId) (next : NodeId) :
    (tree.linkSibling previous next).size = tree.size := by
  unfold linkSibling
  split
  · rfl
  · exact size_modify ..

/-- No node is made or lost by attaching one. -/
@[simp] theorem size_append (tree : Tree) (parent child : NodeId) :
    (tree.append parent child).size = tree.size := by
  rw [append, size_linkSibling, size_modify, size_modify]

@[simp] theorem size_addChild (tree : Tree) (parent : NodeId) (content : Content) :
    (tree.addChild parent content).size = tree.size + 1 := by
  rw [addChild, size_append, size_alloc]

/-- Nodes can be attached exactly if both are nodes of the tree. -/
theorem append?_isSome_iff {tree : Tree} {parent child : NodeId} :
    (tree.append? parent child).isSome ↔ parent < tree.size ∧ child < tree.size := by
  unfold append?
  split
  · next h =>
    obtain ⟨hp, hc⟩ := (Bool.and_eq_true ..).mp h
    exact iff_of_true rfl ⟨contains_iff.mp hp, contains_iff.mp hc⟩
  · next h =>
    refine iff_of_false Bool.false_ne_true fun ⟨hp, hc⟩ => h ?_
    rw [contains_iff.mpr hp, contains_iff.mpr hc]
    rfl

/-! ## Reading -/

/-- The parent of a node. -/
def parent? (tree : Tree) (id : NodeId) : Option NodeId := (tree.node? id).bind (·.parent)

/-- The children of a node, by its list. -/
def children (tree : Tree) (id : NodeId) : List NodeId :=
  ((tree.node? id).map (·.children)).getD []

/-- The first child of a node. -/
def firstChild? (tree : Tree) (id : NodeId) : Option NodeId :=
  (tree.node? id).bind (·.children.head?)

/-- The next sibling of a node. -/
def nextSibling? (tree : Tree) (id : NodeId) : Option NodeId :=
  (tree.node? id).bind (·.nextSibling)

/-- What a node is. -/
def content? (tree : Tree) (id : NodeId) : Option Content := (tree.node? id).map (·.content)

/-- The element at a node. -/
def element? (tree : Tree) (id : NodeId) : Option Element :=
  match tree.content? id with
  | some (.element data) => some data
  | _ => none

/-- The text at a text node. -/
def text? (tree : Tree) (id : NodeId) : Option String :=
  match tree.content? id with
  | some (.text data) => some data
  | _ => none

/-! ## Chains of links -/

/-- The nodes met from `start` on along a link, `count` at most. -/
def follow (link : NodeId → Option NodeId) : Nat → Option NodeId → List NodeId
  | 0, _ => []
  | _, none => []
  | count + 1, some id => id :: follow link count (link id)

/-- The children of a node, by the chain of siblings from the first child on. A chain longer than
the tree would be a cycle. -/
def linkedChildren (tree : Tree) (id : NodeId) : List NodeId :=
  follow tree.nextSibling? tree.size (tree.firstChild? id)

/-- The parent of a node, the parent of the parent and so on. -/
def ancestors (tree : Tree) (id : NodeId) : List NodeId :=
  follow tree.parent? tree.size (tree.parent? id)

/-- Whether a chain of parents leads from `descendant` to `ancestor`. -/
def isDescendantOf (tree : Tree) (descendant ancestor : NodeId) : Bool :=
  (tree.ancestors descendant).contains ancestor

end Tree

end DomSelect
