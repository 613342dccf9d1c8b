import DomSelect.Json
import DomSelect.Query.Selection
import DomSelect.Terminal

/-!
# Reports

The sections that the command line prints: the tokens and the chain of a selector, the tree of a
document and the matches. All but the tree have a form in JSON. Every section ends its last line.
-/

namespace DomSelect.Cli

open Terminal

/-- A line. -/
def line (text : String) : String := text ++ "\n"

/-- A title, the given lines and an empty line. -/
def titled (title : String) (lines : List String) : String :=
  line (bold ("=== " ++ title ++ " ===")) ++ String.join (lines.map line) ++ line ""

/-! ## Tokens and chains -/

/-- The line of a token. -/
def tokenLine (token : Token) : String :=
  dimmed (alignRight 4 (toString token.position)) ++ "  " ++ cyan (alignLeft 18 token.kind.name) ++
    " " ++ Quoted.quote token.text

/-- A token in JSON. -/
def tokenJson (token : Token) : JsonValue :=
  .object [("kind", .text token.kind.name), ("text", .text token.text),
    ("position", .number token.position)]

/-- The section of the tokens. -/
def tokenSection (json : Bool) (tokens : List Token) : String :=
  if json then line (JsonValue.list (tokens.map tokenJson)).render
  else titled "Tokens" (tokens.map tokenLine)

/-- The line of a term. -/
def termLine (index : Nat) (term : Term) : String :=
  dimmed (alignRight 4 (toString index)) ++ "  " ++ green term.render

/-- A term in JSON. -/
def termJson (term : Term) : JsonValue :=
  .object [("id", .ofText? term.id), ("element_name", .ofText? term.elementName),
    ("class_name", .ofText? term.className)]

/-- The section of the chain. -/
def chainSection (json : Bool) (chain : Chain) : String :=
  if json then line (JsonValue.list (chain.terms.map termJson)).render
  else titled "Chain" (chain.terms.mapIdx termLine)

/-! ## Matches -/

/-- A matched element with its node. -/
structure Match where
  node : NodeId
  element : Element
  deriving DecidableEq, Repr

/-- The matches at some nodes. Nodes that are no elements are left out. -/
def matchesAt (tree : Tree) (nodes : List NodeId) : List Match :=
  nodes.filterMap fun id => (tree.element? id).map fun element => ⟨id, element⟩

/-- An attribute of a match. -/
def attributeText (attr : Attribute) : String :=
  attr.name ++ "=\"" ++ attr.value ++ "\""

/-- The line of a match. -/
def matchLine (found : Match) : String :=
  dimmed (alignRight 6 (toString found.node)) ++ "  <" ++
    " ".intercalate (cyan found.element.tag :: found.element.attributes.map attributeText) ++ ">"

/-- An attribute in JSON. -/
def attributeJson (attr : Attribute) : JsonValue :=
  .object [("name", .text attr.name), ("value", .text attr.value)]

/-- A match in JSON. -/
def matchJson (found : Match) : JsonValue :=
  .object [("node", .number found.node), ("tag", .text found.element.tag),
    ("attributes", .list (found.element.attributes.map attributeJson))]

/-- The section of the matches: a line for each and their number. -/
def matchSection (json : Bool) (found : List Match) : String :=
  if json then line (JsonValue.list (found.map matchJson)).render
  else if found.isEmpty then line (yellow "no matches")
  else
    String.join (found.map fun one => line (matchLine one)) ++
      line (bold (toString found.length ++ " match(es)"))

end DomSelect.Cli
