import DomSelect.Tree.Basic

/-!
# Tree order

A node comes before its descendants, and these come before the next sibling of the node. The order
is produced with a list of pending entries: the first one is visited, and what it expands to takes
its place in front of the others (`Preorder.Traversal.step`).

The number of visits is limited. An unfolding that ends has no entry twice on a path from its
start, so it is no deeper than there are entries. The limit grows exponentially with that depth, and
the traversal ends as soon as nothing is pending, so steps are made in leaps, each with twice the
steps of the one before it (`Preorder.order`).
-/

namespace DomSelect

namespace Preorder

variable {α : Type}

/-! ## Traversals -/

/-- A traversal under way. -/
structure Traversal (α : Type) where
  /-- What is still to be visited, the next entry first. -/
  pending : List α
  /-- What has been visited, the latest entry first. -/
  visited : List α

namespace Traversal

/-- Visit the next entry, if there is one. -/
def step (expand : α → List α) (traversal : Traversal α) : Traversal α :=
  match traversal.pending with
  | [] => traversal
  | entry :: rest => ⟨expand entry ++ rest, entry :: traversal.visited⟩

/-- Make `2 ^ k` steps, as long as something is pending. -/
def leap (expand : α → List α) : Nat → Traversal α → Traversal α
  | 0, traversal => traversal.step expand
  | k + 1, traversal =>
    if traversal.pending.isEmpty then traversal else leap expand k (leap expand k traversal)

/-- Make `count` leaps, of `2 ^ k` steps, `2 ^ (k + 1)` steps and so on. -/
def leaps (expand : α → List α) : Nat → Nat → Traversal α → Traversal α
  | 0, _, traversal => traversal
  | count + 1, k, traversal =>
    if traversal.pending.isEmpty then traversal
    else leaps expand count (k + 1) (leap expand k traversal)

end Traversal

/-! ## The order -/

/-- The entries from `start` on in the order in which they are visited, with `leaps` leaps. -/
def order (expand : α → List α) (leaps : Nat) (start : α) : List α :=
  (Traversal.leaps expand leaps 0 ⟨[start], []⟩).visited.reverse

/-- A number of leaps that is enough for an unfolding with `depth` levels and at most `breadth`
entries after each one: it has at most `(breadth + 1) ^ depth` entries, and `breadth + 1` is at most
`2 ^ breadth`. -/
def leapLimit (depth breadth : Nat) : Nat := breadth * depth + 1

end Preorder

namespace Tree

/-- Number of entries in the lists of children. -/
def childLinks (tree : Tree) : Nat := (tree.nodes.toList.flatMap (·.children)).length

/-- A node and all its descendants in tree order, by the lists of children. -/
def descendants (tree : Tree) (id : NodeId) : List NodeId :=
  if tree.contains id then
    Preorder.order tree.children (Preorder.leapLimit tree.size tree.childLinks) id
  else []

end Tree

end DomSelect
