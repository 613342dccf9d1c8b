import DomSelect.Query.Selection

/-!
# Forms

`forms` lists the `form` elements of a document. `findForm` looks for the first of them with a
match of a selector at or below it; a malformed selector is an error here.
-/

namespace DomSelect.Tree

/-- Whether a node is a `form` element. -/
def isForm (tree : Tree) (id : NodeId) : Bool := (tree.element? id).any (·.tag == "form")

/-- The `form` elements below the document, in tree order. -/
def forms (tree : Tree) : List NodeId := (tree.descendants root).filter tree.isForm

/-- The first of some nodes with a match of the chain at or below it. -/
def firstWithMatch (tree : Tree) (chain : Chain) : List NodeId → Except QueryError (Option NodeId)
  | [] => .ok none
  | id :: rest =>
    match tree.findAllFrom id chain .inclusive with
    | .error error => .error error
    | .ok selection => if selection.isEmpty then tree.firstWithMatch chain rest else .ok (some id)

/-- The first form with a match of the selector at or below it. -/
def findForm (tree : Tree) (selector : String) : Except QueryError NodeId :=
  match compileStrict selector with
  | .error error => .error (.malformed error)
  | .ok chain =>
    match tree.firstWithMatch chain tree.forms with
    | .error error => .error error
    | .ok none => .error (.formNotFound selector)
    | .ok (some id) => .ok id

end DomSelect.Tree
