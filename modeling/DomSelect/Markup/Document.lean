import DomSelect.Markup.Reading

/-!
# From pieces to documents

A fragment holds its pieces as they are nested. A document has the elements `html`, `head` and
`body`, written or implied. Where a piece goes depends on what has been met before it: elements
such as `meta`, `title` and `template` open the head as long as the body has not begun, other
elements and text that is not blank open the body. What follows the end of the body or of `html`
still goes to the body, comments excepted. Where `html` or `body` is written once more, it adds the
attributes that are missing.

`main` runs the command with `readDocument`, which does not mend misplaced tags as browsers do. The
command itself takes any reader of markup.
-/

namespace DomSelect.Markup

/-- Attributes with those of `more` whose names they lack. -/
def addMissing (attributes more : List Attribute) : List Attribute :=
  attributes ++ more.filter fun attr => attributes.all (·.name != attr.name)

/-- Whether a piece begins an element of the document as a whole, so that it does not go into the
content. The content of a `template` is no part of the document. -/
def Nesting.isLeftBy (nesting : Nesting) : Piece → Bool
  | .startTag data _ =>
    ["html", "head", "body"].contains data.tag && nesting.opensHtml data && !nesting.isInTemplate
  | _ => false

/-! ## Documents -/

/-- Which part of a document comes next. -/
inductive Stage where
  | beforeHtml
  | beforeHead
  | inHead
  | afterHead
  | inBody
  | afterBody
  | afterHtml
  deriving DecidableEq, Repr

/-- A document being read. Lists of nodes have the latest first. -/
structure Builder where
  stage : Stage
  prolog : List SourceNode
  htmlAttributes : List Attribute
  beforeHead : List SourceNode
  headAttributes : List Attribute
  head : Nesting
  afterHead : List SourceNode
  bodyAttributes : List Attribute
  body : Nesting
  afterBody : List SourceNode
  epilog : List SourceNode

namespace Builder

/-- No document yet. -/
def empty : Builder :=
  ⟨.beforeHtml, [], [], [], [], Nesting.empty, [], [],
    { Nesting.empty with tableEndsParagraph := false }, [], []⟩

/-- Whether `body` has not begun. -/
def isBeforeBody (builder : Builder) : Bool :=
  match builder.stage with
  | .beforeHtml | .beforeHead | .inHead | .afterHead => true
  | .inBody | .afterBody | .afterHtml => false

/-- Add a piece to the content of `body`. -/
def addToBody (builder : Builder) (piece : Piece) : Builder :=
  { builder with body := builder.body.add piece, stage := .inBody }

/-- Add a blank text. -/
def addBlank (builder : Builder) (data : String) : Builder :=
  match builder.stage with
  | .beforeHtml | .beforeHead => builder
  | .inHead => { builder with head := builder.head.insert (.text data) }
  | .afterHead => { builder with afterHead := addNode (.text data) builder.afterHead }
  | .inBody | .afterBody | .afterHtml => { builder with body := builder.body.insert (.text data) }

/-- Add a text: the blanks at its beginning first, then the rest, which belongs to the body. -/
def addText (builder : Builder) (data : String) : Builder :=
  let blank := builder.addBlank (String.ofList (data.toList.takeWhile isSpace))
  match data.toList.dropWhile isSpace with
  | [] => blank
  | rest => blank.addToBody (.text (String.ofList rest))

/-- Add a comment. -/
def addComment (builder : Builder) (data : String) : Builder :=
  let comment := SourceNode.comment data
  match builder.stage with
  | .beforeHtml => { builder with prolog := comment :: builder.prolog }
  | .beforeHead => { builder with beforeHead := comment :: builder.beforeHead }
  | .inHead => { builder with head := builder.head.insert comment }
  | .afterHead => { builder with afterHead := comment :: builder.afterHead }
  | .inBody => { builder with body := builder.body.insert comment }
  | .afterBody => { builder with afterBody := comment :: builder.afterBody }
  | .afterHtml => { builder with epilog := comment :: builder.epilog }

/-- Add a document type, which counts before `html` only. -/
def addDoctype (builder : Builder) : Builder :=
  match builder.stage with
  | .beforeHtml =>
    { builder with
      prolog := .doctype :: builder.prolog
      body := { builder.body with tableEndsParagraph := true } }
  | _ => builder

/-- Add an element of the head. After the end of the head it still goes there, `noscript`
excepted. -/
def addToHead (builder : Builder) (data : Element) (isEmpty : Bool) : Builder :=
  match builder.stage with
  | .beforeHtml | .beforeHead | .inHead =>
    { builder with head := builder.head.start data isEmpty, stage := .inHead }
  | .afterHead =>
    if data.tag = "noscript" then builder.addToBody (.startTag data isEmpty)
    else { builder with head := builder.head.start data isEmpty }
  | .inBody | .afterBody | .afterHtml => builder.addToBody (.startTag data isEmpty)

/-- Add a start tag. -/
def addStartTag (builder : Builder) (data : Element) (isEmpty : Bool) : Builder :=
  if data.tag = "html" then
    match builder.stage with
    | .beforeHtml => { builder with htmlAttributes := data.attributes, stage := .beforeHead }
    | _ => { builder with htmlAttributes := addMissing builder.htmlAttributes data.attributes }
  else if data.tag = "head" then
    match builder.stage with
    | .beforeHtml | .beforeHead =>
      { builder with headAttributes := data.attributes, stage := .inHead }
    | _ => builder
  else if data.tag = "body" then
    { builder with
      bodyAttributes := addMissing builder.bodyAttributes data.attributes, stage := .inBody }
  else if isForHead data.tag then builder.addToHead data isEmpty
  else builder.addToBody (.startTag data isEmpty)

/-- Add an end tag. -/
def addEndTag (builder : Builder) (tag : String) : Builder :=
  if tag = "head" then
    match builder.stage with
    | .beforeHtml | .beforeHead | .inHead => { builder with stage := .afterHead }
    | _ => builder
  else if tag = "body" then
    if builder.isBeforeBody || builder.stage = .inBody then { builder with stage := .afterBody }
    else builder
  else if tag = "html" then { builder with stage := .afterHtml }
  else if builder.isBeforeBody && tag != "br" then builder
  else builder.addToBody (.endTag tag)

/-- Add a piece of markup. -/
def add (builder : Builder) (piece : Piece) : Builder :=
  if builder.head.isInside then { builder with head := builder.head.add piece }
  else if builder.body.isInside && !builder.body.isLeftBy piece then
    { builder with body := builder.body.add piece }
  else match piece with
    | .startTag data isEmpty => builder.addStartTag data isEmpty
    | .endTag tag => builder.addEndTag tag
    | .text data => builder.addText data
    | .comment data => builder.addComment data
    | .doctype => builder.addDoctype

/-- The nodes of the document. -/
def finish (builder : Builder) : List SourceNode :=
  let head := SourceNode.element ⟨"head", builder.headAttributes⟩ builder.head.finish
  let body := SourceNode.element ⟨"body", builder.bodyAttributes⟩ builder.body.finish
  let html := SourceNode.element ⟨"html", builder.htmlAttributes⟩
    (builder.beforeHead.reverse ++ [head] ++ builder.afterHead.reverse ++ [body] ++
      builder.afterBody.reverse)
  builder.prolog.reverse ++ [html] ++ builder.epilog.reverse

end Builder

instance : Draft Builder where
  content builder := if builder.head.isInside then builder.head else builder.body
  add := Builder.add

/-- The document that markup stands for. -/
def readDocument (markup : String) : SourceNode :=
  .document (Draft.addMarkup Builder.empty markup).finish

/-! ## Fragments -/

/-- A fragment being read. -/
structure Fragment where
  attributes : List Attribute
  content : Nesting

namespace Fragment

/-- No fragment yet. -/
def empty : Fragment := ⟨[], Nesting.empty⟩

/-- Add a piece of markup. -/
def add (fragment : Fragment) (piece : Piece) : Fragment :=
  let content := fragment.content.add piece
  match piece with
  | .startTag ⟨"html", attributes⟩ _ =>
    if fragment.content.isLeftBy piece then ⟨addMissing fragment.attributes attributes, content⟩
    else ⟨fragment.attributes, content⟩
  | _ => ⟨fragment.attributes, content⟩

end Fragment

instance : Draft Fragment where
  content := Fragment.content
  add := Fragment.add

/-- The fragment that markup stands for, in an `html` element. -/
def readFragment (markup : String) : SourceNode :=
  let fragment := Draft.addMarkup Fragment.empty markup
  .document [.element ⟨"html", fragment.attributes⟩ fragment.content.finish]

end DomSelect.Markup
