import DomSelect.Tree.Element
import DomSelect.Tree.Rose

/-!
# Parsed markup

What markup denotes is a list of nodes, each with its content inside it. Besides elements, texts
and comments these are document types, processing instructions and nested documents; a `template`
element holds one of the last kind. `visits` is the way through such nodes in the order of the
markup.
-/

namespace DomSelect.Markup

/-- What a node of parsed markup is. -/
inductive SourceContent where
  | element (data : Element)
  | text (data : String)
  | comment (data : String)
  | doctype
  | instruction
  | document
  deriving DecidableEq, Repr, Inhabited

/-- A node of parsed markup with everything below it. -/
abbrev SourceNode := Rose SourceContent

namespace SourceNode

/-- An element with its content. -/
@[match_pattern] def element (data : Element) (children : List SourceNode) : SourceNode :=
  .node (.element data) children

/-- A text. -/
@[match_pattern] def text (data : String) : SourceNode := .node (.text data) []

/-- A comment. -/
@[match_pattern] def comment (data : String) : SourceNode := .node (.comment data) []

/-- A document type. -/
@[match_pattern] def doctype : SourceNode := .node .doctype []

/-- A document, or a fragment of one, with its content. -/
@[match_pattern] def document (children : List SourceNode) : SourceNode :=
  .node .document children

end SourceNode

/-! ## The order of the markup -/

/-- A node as it is met on the way through parsed markup. -/
structure Visit where
  name : Nat
  /-- The name of the node that holds it, `none` at the top. -/
  holder : Option Nat
  content : SourceContent
  deriving DecidableEq, Repr, Inhabited

mutual

/-- The way through a node, which comes before all it holds. The name of a node is given by the
number of nodes `met` before it. -/
def visits (name : Nat → Nat) (holder : Option Nat) (met : Nat) : SourceNode → List Visit
  | .node content children =>
    ⟨name met, holder, content⟩ :: visitsAll name (some (name met)) (met + 1) children

/-- The way through a list of nodes. -/
def visitsAll (name : Nat → Nat) (holder : Option Nat) (met : Nat) :
    List SourceNode → List Visit
  | [] => []
  | node :: rest =>
    let first := visits name holder met node
    first ++ visitsAll name holder (met + first.length) rest

end

theorem visitsAll_cons (name : Nat → Nat) (holder : Option Nat) (met : Nat)
    (content : SourceContent) (children rest : List SourceNode) :
    visitsAll name holder met (.node content children :: rest) =
      ⟨name met, holder, content⟩ :: (visitsAll name (some (name met)) (met + 1) children ++
        visitsAll name holder
          (met + 1 + (visitsAll name (some (name met)) (met + 1) children).length) rest) := by
  rw [visitsAll, visits, List.length_cons, ← Nat.add_assoc, Nat.add_right_comm, List.cons_append]

end DomSelect.Markup
