import DomSelect.Query.Matching
import DomSelect.Selector.Chain
import DomSelect.Tree.Preorder

/-!
# Walks

A walk visits nodes in tree order, by the links from a node to its first child and from there to
the next siblings, and carries the position of the term that is still to be matched. A node that
matches it moves the position on for its own descendants only. Below a match of the last term
nothing is visited.

`walk` lists the nodes that matched: in inclusive mode the matches of every term, in strict mode
those of the last one.
-/

namespace DomSelect

/-- Which matches a walk reports. -/
inductive MatchMode where
  /-- The matches of every term. -/
  | inclusive
  /-- The matches of the last term. -/
  | strict
  deriving DecidableEq, Repr, Inhabited

namespace Walk

/-- A node to visit and the position of the term to be matched there. -/
structure Entry where
  node : NodeId
  position : Nat
  deriving DecidableEq, Repr, Inhabited

variable (tree : Tree) (terms : List Term)

/-- Whether the node matches the term of the entry. -/
def hits (entry : Entry) : Bool :=
  (terms[entry.position]?).any fun term => term.matchesNode tree entry.node

/-- The position with which the children of the node are visited. -/
def positionBelow (entry : Entry) : Nat :=
  if hits tree terms entry then entry.position + 1 else entry.position

/-- What is visited below a node. -/
def expand (entry : Entry) : List Entry :=
  let position := positionBelow tree terms entry
  if position = terms.length then []
  else (tree.linkedChildren entry.node).map fun child => ⟨child, position⟩

/-- The entries of a walk from `start` on, in the order of the visits. -/
def visits (start : NodeId) : List Entry :=
  Preorder.order (expand tree terms)
    (Preorder.leapLimit (tree.size * terms.length + 1) tree.size) ⟨start, 0⟩

/-- Whether a match at this entry is reported. -/
def reports (mode : MatchMode) (entry : Entry) : Bool :=
  hits tree terms entry && (mode = .inclusive || positionBelow tree terms entry = terms.length)

variable {tree} {other : Tree}

/-- Trees whose nodes match the same terms have the same hits. -/
theorem hits_congr (h : ∀ term id, Term.matchesNode term tree id = term.matchesNode other id) :
    hits tree terms = hits other terms := by
  funext entry
  unfold hits
  simp only [h]

theorem positionBelow_congr (h : hits tree terms = hits other terms) :
    positionBelow tree terms = positionBelow other terms := by
  unfold positionBelow
  rw [h]

end Walk

/-- The nodes that a walk from `start` on reports, in the order of the visits. Without terms
nothing matches. -/
def walk (tree : Tree) (start : NodeId) (terms : List Term) (mode : MatchMode) : List NodeId :=
  if terms.isEmpty then []
  else ((Walk.visits tree terms start).filter (Walk.reports tree terms mode)).map (·.node)

end DomSelect
