import DomSelect.Query.Walk
import DomSelect.Selector.Compile

/-!
# Selections

A selection is the list of nodes that one query reports, with the tree they belong to. A query
starts at the document or at a given node; a number that belongs to no node is refused.
-/

namespace DomSelect

/-- Nodes reported by one query, in the order of the matches. -/
structure Selection where
  tree : Tree
  nodes : List NodeId
  deriving DecidableEq, Repr, Inhabited

namespace Selection

/-- Number of nodes. -/
def length (selection : Selection) : Nat := selection.nodes.length

/-- Whether nothing matched. -/
def isEmpty (selection : Selection) : Bool := selection.nodes.isEmpty

/-- The first node. -/
def first? (selection : Selection) : Option NodeId := selection.nodes.head?

/-- Whether a node is among those selected. -/
def contains (selection : Selection) (id : NodeId) : Bool := selection.nodes.contains id

/-- The elements at the nodes. -/
def elements (selection : Selection) : List Element :=
  selection.nodes.filterMap selection.tree.element?

end Selection

/-- Why a query has no answer. -/
inductive QueryError where
  | nodeNotInTree (id : NodeId)
  | formNotFound (selector : String)
  | malformed (error : SyntaxError)
  deriving DecidableEq, Repr

/-- The text of the error. -/
def QueryError.message : QueryError → String
  | nodeNotInTree id => "node NodeId(" ++ toString id ++ ") does not belong to this document"
  | formNotFound selector => "no form matches selector " ++ Quoted.quote selector
  | malformed error => error.message

namespace Tree

/-- The matches of a chain below the document. -/
def findAllWith (tree : Tree) (chain : Chain) (mode : MatchMode) : Selection :=
  ⟨tree, walk tree root chain.terms mode⟩

/-- The matches of every term of a chain below the document. -/
def findAll (tree : Tree) (chain : Chain) : Selection := tree.findAllWith chain .inclusive

/-- The matches of a chain at and below a node. -/
def findAllFrom (tree : Tree) (start : NodeId) (chain : Chain) (mode : MatchMode) :
    Except QueryError Selection :=
  if tree.contains start then .ok ⟨tree, walk tree start chain.terms mode⟩
  else .error (.nodeNotInTree start)

/-- The matches of a selector, up to its first error, below the document. -/
def select (tree : Tree) (selector : String) : Selection := tree.findAll (compile selector)

end Tree

end DomSelect
