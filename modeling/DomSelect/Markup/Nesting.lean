import DomSelect.Markup.Foreign
import DomSelect.Markup.Node
import DomSelect.Markup.Piece

/-!
# Nested content

Content is read with a stack of open elements. A start tag opens an element in the innermost one,
an end tag closes the innermost element of its kind and those inside it. The parts of a table that
are left out around a part of it are opened with it; outside of tables such parts are ignored. In a
document that does not state its type, a paragraph can hold a table. In a `select` most tags are
ignored.

In drawings and formulas all elements are alike: a start tag opens one, unless it is marked as
empty, and an end tag closes the innermost element with its name.
-/

namespace DomSelect.Markup

/-- An open element. -/
structure Frame where
  space : Namespace
  data : Element
  /-- Its content so far, the latest first. -/
  content : List SourceNode

/-- Content being read. -/
structure Nesting where
  frames : List Frame
  /-- The nodes outside all open elements, the latest first. -/
  nodes : List SourceNode
  /-- Whether a table ends the paragraph in which it begins. -/
  tableEndsParagraph : Bool

/-- Add a node after others, given with the latest first. Adjacent texts become one. -/
def addNode (node : SourceNode) (nodes : List SourceNode) : List SourceNode :=
  match node, nodes with
  | .text "", _ => nodes
  | .text later, .text earlier :: rest => .text (earlier ++ later) :: rest
  | _, _ => node :: nodes

namespace Frame

/-- Whether this is an element of documents with one of the `tags`. -/
def isOneOf (frame : Frame) (tags : List String) : Bool :=
  frame.space == .html && tags.contains frame.data.tag

/-- Whether a search does not go on outside this element, given where it `stops` in documents. -/
def isBoundary (frame : Frame) (stops : String → Bool) : Bool :=
  if frame.space = .html then stops frame.data.tag
  else holdsHtml frame.space frame.data.tag

/-- Whether the content of this element belongs to a drawing or formula. -/
def isForeign (frame : Frame) : Bool :=
  frame.space != .html && !holdsHtml frame.space frame.data.tag

end Frame

namespace Nesting

/-- No content. -/
def empty : Nesting := ⟨[], [], true⟩

/-- Whether an element is open. -/
def isInside (nesting : Nesting) : Bool := !nesting.frames.isEmpty

/-- Whether a `template` is open. -/
def isInTemplate (nesting : Nesting) : Bool := nesting.frames.any (·.isOneOf ["template"])

/-- Whether the innermost open element is one of a table that holds parts of the table only. -/
def isBetweenParts (nesting : Nesting) : Bool :=
  nesting.frames.head?.any (·.isOneOf ["table", "tbody", "tfoot", "thead", "tr"])

/-- Whether a table is open, in the innermost `template` if there is one. -/
def isInTable (nesting : Nesting) : Bool :=
  (nesting.frames.find? (·.isOneOf ["table", "template"])).any (·.isOneOf ["table"])

/-- Whether the content has got to the options of a `select`. -/
def isInSelect (nesting : Nesting) : Bool :=
  (nesting.frames.dropWhile (·.isOneOf ["optgroup", "option"])).head?.any (·.isOneOf ["select"])

/-- Whether the innermost open element is one of documents with this tag. -/
def isAt (nesting : Nesting) (tag : String) : Bool :=
  nesting.frames.head?.any (·.isOneOf [tag])

/-- Whether the innermost open element is one of a drawing or formula. -/
def isInForeign (nesting : Nesting) : Bool := nesting.frames.head?.any (·.space != .html)

/-- Whether an element that begins now belongs to documents. -/
def opensHtml (nesting : Nesting) (data : Element) : Bool :=
  leavesForeign data ||
    !nesting.frames.head?.any fun frame => staysForeign frame.space frame.data.tag data.tag

/-- Add a node to the innermost open element. -/
def insert (nesting : Nesting) (node : SourceNode) : Nesting :=
  match nesting.frames with
  | [] => { nesting with nodes := addNode node nesting.nodes }
  | frame :: outer =>
    { nesting with frames := { frame with content := addNode node frame.content } :: outer }

/-! ## Closing elements -/

/-- An element that is complete. The content of a `template` is a document of its own. -/
def complete (frame : Frame) : SourceNode :=
  if frame.isOneOf ["template"] then .element frame.data [.document frame.content.reverse]
  else .element frame.data frame.content.reverse

/-- Close the innermost open elements, `count` of them. -/
def closeMany : Nat → Nesting → Nesting
  | 0, nesting => nesting
  | count + 1, nesting =>
    match nesting.frames with
    | [] => nesting
    | frame :: outer => closeMany count (insert { nesting with frames := outer } (complete frame))

/-- How many elements are open inside the innermost one of documents with one of the `tags`, `none`
if there is no such one or one that `stops` the search is inside it. -/
def depth? (tags : List String) (stops : String → Bool) : List Frame → Option Nat
  | [] => none
  | frame :: outer =>
    if frame.isOneOf tags then some 0
    else if frame.isBoundary stops then none
    else (depth? tags stops outer).map (· + 1)

/-- Close the innermost element of documents with one of the `tags`, and those inside it, unless one
that `stops` the search is inside it. -/
def close? (nesting : Nesting) (tags : List String) (stops : String → Bool) : Option Nesting :=
  (depth? tags stops nesting.frames).map fun depth => closeMany (depth + 1) nesting

/-- Whether an element of documents with one of the `tags` is open around, if there are any. -/
def isWithin (nesting : Nesting) (tags : List String) : Bool :=
  tags.isEmpty || (depth? tags isBoundary nesting.frames).isSome

/-- Close the elements that a start tag ends. -/
def makeRoom (nesting : Nesting) (tag : String) : Nesting :=
  if tag = "table" && !nesting.tableEndsParagraph then nesting
  else
    endings.foldl
      (fun nesting ending =>
        if ending.starts.contains tag && nesting.isWithin ending.within then
          (nesting.close? ending.ends ending.isKeptBy).getD nesting
        else nesting)
      nesting

/-- Leave an element of documents. The end of a paragraph that is not open is an empty paragraph,
and the end of a line break is a line break. -/
def leave (nesting : Nesting) (tag : String) : Nesting :=
  match nesting.close? (closedBy tag) (blocksEnd tag) with
  | some after => after
  | none =>
    if ["br", "p"].contains tag then nesting.insert (.element ⟨tag, []⟩ []) else nesting

/-! ## Opening elements -/

/-- Begin an element where the content has got to. -/
def push (nesting : Nesting) (space : Namespace) (data : Element) : Nesting :=
  { nesting with frames := ⟨space, data, []⟩ :: nesting.frames }

/-- Begin an element of documents where the content has got to. -/
def pushHtml (nesting : Nesting) (data : Element) : Nesting :=
  if isVoid data.tag then nesting.insert (.element data []) else nesting.push .html data

/-- Begin an element of a drawing or formula, which may be empty. -/
def pushForeign (nesting : Nesting) (space : Namespace) (data : Element) (isEmpty : Bool) :
    Nesting :=
  let data := inNamespace space data
  if isEmpty then nesting.insert (.element data []) else nesting.push space data

/-- Where a part of a table goes: the number of open elements to be closed, and the tags to be
opened. It does not leave a `template`. -/
def place? (part : TablePart) : List Frame → Option (Nat × List String)
  | [] => none
  | frame :: outer =>
    match if frame.space = .html then part.impliedIn? frame.data.tag else none with
    | some implied => some (0, implied)
    | none =>
      if frame.isOneOf ["template"] then none
      else (place? part outer).map fun (count, implied) => (count + 1, implied)

/-- Whether no form may begin: one is open, and no `template`. -/
def isInForm (nesting : Nesting) : Bool :=
  nesting.frames.any (·.isOneOf ["form"]) && !nesting.isInTemplate

/-- Open an element of documents, with those implied around it, after closing those that it ends. A
form between the parts of a table is empty, and one inside a form is ignored. -/
def enter (nesting : Nesting) (data : Element) : Nesting :=
  match TablePart.ofTag? data.tag with
  | none =>
    if data.tag = "form" && nesting.isInForm then nesting
    else if data.tag = "form" && nesting.isBetweenParts then nesting.insert (.element data [])
    else (nesting.makeRoom data.tag).pushHtml data
  | some part =>
    match place? part nesting.frames with
    | none => nesting
    | some (count, implied) =>
      (implied.foldl (fun nesting tag => nesting.pushHtml ⟨tag, []⟩)
        (closeMany count nesting)).pushHtml data

/-- Close the elements of drawings and formulas up to one with ordinary content. -/
def leaveForeign (nesting : Nesting) : Nesting :=
  closeMany (nesting.frames.takeWhile Frame.isForeign).length nesting

/-- Open an element. One that a drawing or formula cannot hold leaves it. The elements of the
document as a whole do not occur in content. -/
def start (nesting : Nesting) (data : Element) (isEmpty : Bool) : Nesting :=
  if nesting.opensHtml data then
    if ["html", "head", "body", "frame"].contains data.tag then nesting
    else if data.tag = "svg" then nesting.pushForeign .svg data isEmpty
    else if data.tag = "math" then nesting.pushForeign .math data isEmpty
    else nesting.leaveForeign.enter data
  else
    match nesting.frames with
    | [] => nesting
    | frame :: _ => nesting.pushForeign frame.space data isEmpty

/-! ## Reading content -/

/-- Add a start tag. The start of a group of options ends the group that is open. -/
def addStartTag (nesting : Nesting) (data : Element) (isEmpty : Bool) : Nesting :=
  if nesting.isInSelect then
    match SelectTag.ofTag nesting.isInTable data.tag with
    | .opens =>
      (if data.tag = "optgroup" then nesting.leave "optgroup" else nesting).enter data
    | .ends => nesting.leave "select"
    | .leaves => (nesting.leave "select").start data isEmpty
    | .ignored => nesting
  else nesting.start data isEmpty

/-- Add an end tag, which closes the innermost element with its name in the drawing or formula that
the content has got to, or else one of documents. -/
def addEndTag (nesting : Nesting) (tag : String) : Nesting :=
  let inner := nesting.frames.takeWhile (·.space != .html)
  match inner.findIdx? (·.data.tag.toLower == tag) with
  | some depth => closeMany (depth + 1) nesting
  | none => if nesting.isInSelect && !endsInSelect tag then nesting else nesting.leave tag

/-- Add a text. Null characters are left out, except in drawings and formulas. -/
def addText (nesting : Nesting) (data : String) : Nesting :=
  let isForeign := nesting.frames.head?.any Frame.isForeign
  let chars := data.toList
  let kept := if isForeign then chars.map replaceNull else chars.filter (· != '\x00')
  nesting.insert (.text (String.ofList kept))

/-- Add a piece of markup. -/
def add (nesting : Nesting) : Piece → Nesting
  | .startTag data isEmpty => nesting.addStartTag data isEmpty
  | .endTag tag => nesting.addEndTag tag
  | .text data => nesting.addText data
  | .comment data => nesting.insert (.comment data)
  | .doctype => nesting

/-- The nodes, in order, all elements closed. -/
def finish (nesting : Nesting) : List SourceNode :=
  (closeMany nesting.frames.length nesting).nodes.reverse

end Nesting

end DomSelect.Markup
