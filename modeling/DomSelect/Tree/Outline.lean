import DomSelect.Tree.Basic

/-!
# Outlines

An outline shows a node and its descendants, by the lists of children, one line for each. A line is
indented by two spaces for every level below the first node. In texts a line feed is shown as a
backslash and an `n`, and a space as a middle dot.
-/

namespace DomSelect.Outline

/-- A character of a text node. -/
def showTextChar (c : Char) : List Char :=
  if c = '\n' then ['\\', 'n'] else if c = ' ' then ['·'] else [c]

/-- The text of a text node. -/
def showText (text : String) : String := String.ofList (text.toList.flatMap showTextChar)

/-- An attribute: its name alone if the value is empty. -/
def showAttribute (attr : Attribute) : String :=
  if attr.value = "" then attr.name
  else attr.name ++ "=\"" ++ attr.value ++ "\""

/-- The start tag of an element. -/
def showElement (element : Element) : String :=
  "<" ++ " ".intercalate (element.tag :: element.attributes.map showAttribute) ++ ">"

/-- What stands on the line of a node. -/
def showContent : Content → String
  | .document => "Document"
  | .element data => showElement data
  | .text data => "\"" ++ showText data ++ "\""
  | .comment data => "<!-- " ++ data ++ " -->"

/-- Two spaces for each level. -/
def indentation (level : Nat) : String := String.ofList (List.replicate (2 * level) ' ')

/-- The line of a node. -/
def line (level : Nat) (content : Content) : String :=
  indentation level ++ showContent content ++ "\n"

/-- The lines of a node at `level` and of its descendants, `depth` levels at most. -/
def lines (tree : Tree) : Nat → Nat → NodeId → List String
  | 0, _, _ => []
  | depth + 1, level, id =>
    match tree.node? id with
    | none => []
    | some node =>
      line level node.content :: node.children.flatMap (lines tree depth (level + 1))

end Outline

namespace Tree

/-- The outline of a node. No node stands twice on a path from it unless the outline has no end, so
as many levels as there are nodes are enough. -/
def outline (tree : Tree) (id : NodeId) : String :=
  String.join (Outline.lines tree tree.size 0 id)

end Tree

end DomSelect
