/-!
# What is known about tags

Most elements hold markup, between a start tag and an end tag. Some hold text only, and the void
ones hold nothing. Where elements of some kinds meet, a tag says more than it shows: the parts of
a table imply the parts around them, a `select` holds little but options, and a start tag can end an
element whose end tag is left out.
-/

namespace DomSelect.Markup

/-! ## Content -/

/-- The elements without content and end tag. -/
def isVoid (tag : String) : Bool :=
  ["area", "base", "basefont", "bgsound", "br", "col", "embed", "hr", "img", "input", "keygen",
    "link", "meta", "param", "source", "track", "wbr"].contains tag

/-- How the content of an element is written. -/
inductive ContentForm where
  | markup
  | text
  /-- As text up to the end tag, in which a reference is nothing but its characters. -/
  | verbatim
  deriving DecidableEq, Repr

/-- How the content of an element with this tag is written. -/
def contentForm (tag : String) : ContentForm :=
  if ["textarea", "title"].contains tag then .text
  else if ["iframe", "noembed", "noframes", "noscript", "script", "style", "xmp"].contains tag then
    .verbatim
  else .markup

/-- The elements whose content may begin on a line of its own: a line feed right after the start
tag is no part of it. -/
def skipsLineFeed (tag : String) : Bool := ["listing", "pre", "textarea"].contains tag

/-- The elements that belong to the head of a document as long as its body has not begun. -/
def isForHead (tag : String) : Bool :=
  ["base", "basefont", "bgsound", "link", "meta", "noframes", "noscript", "script", "style",
    "template", "title"].contains tag

/-! ## Tables -/

/-- The parts of a table. -/
inductive TablePart where
  | caption
  | columns
  | column
  | rows
  | row
  | cell
  deriving DecidableEq, Repr

namespace TablePart

/-- The part of a table that a tag stands for. -/
def ofTag? (tag : String) : Option TablePart :=
  if tag = "caption" then some caption
  else if tag = "colgroup" then some columns
  else if tag = "col" then some column
  else if ["tbody", "tfoot", "thead"].contains tag then some rows
  else if tag = "tr" then some row
  else if ["td", "th"].contains tag then some cell
  else none

/-- The parts around this one, from the table inwards, with the tags they have where they are
implied. -/
def around : TablePart → List (TablePart × String)
  | caption | columns | rows => []
  | column => [(columns, "colgroup")]
  | row => [(rows, "tbody")]
  | cell => [(rows, "tbody"), (row, "tr")]

/-- The tags implied between an element with tag `holder` and a part of a table that it holds,
`none` where it cannot hold that part. -/
def impliedIn? (part : TablePart) (holder : String) : Option (List String) :=
  if holder = "table" then some (part.around.map (·.2))
  else match part.around.dropWhile fun outer => some outer.1 != ofTag? holder with
    | [] => none
    | _ :: inner => some (inner.map (·.2))

end TablePart

/-! ## Selects -/

/-- What a start tag does inside a `select`. -/
inductive SelectTag where
  | opens
  | ends
  /-- It ends the `select` and opens an element outside. -/
  | leaves
  | ignored
  deriving DecidableEq, Repr

/-- What a start tag does inside a `select`, which may be in a table. -/
def SelectTag.ofTag (isInTable : Bool) (tag : String) : SelectTag :=
  if ["optgroup", "option", "script", "template"].contains tag then opens
  else if tag = "select" then ends
  else if ["input", "keygen", "textarea"].contains tag then leaves
  else if isInTable &&
      ["caption", "table", "tbody", "td", "tfoot", "th", "thead", "tr"].contains tag then leaves
  else ignored

/-- Whether an end tag has an effect inside a `select`. -/
def endsInSelect (tag : String) : Bool :=
  ["optgroup", "option", "select", "table", "template"].contains tag ||
    (TablePart.ofTag? tag).isSome

/-! ## Elements that end without an end tag -/

/-- The elements that a tag does not reach out of. -/
def isBoundary (tag : String) : Bool :=
  ["applet", "caption", "marquee", "object", "table", "td", "template", "th"].contains tag

/-- Headings. -/
def headings : List String := ["h1", "h2", "h3", "h4", "h5", "h6"]

/-- The elements that a paragraph cannot hold. -/
def blocks : List String :=
  ["address", "article", "aside", "blockquote", "center", "dd", "details", "dialog", "dir", "div",
    "dl", "dt", "fieldset", "figcaption", "figure", "footer", "form", "header", "hgroup", "hr",
    "li", "listing", "main", "menu", "nav", "ol", "p", "plaintext", "pre", "section", "summary",
    "ul", "xmp"] ++ headings

/-- The elements inside which an item of a list outside them stays open. -/
def keepsItem (tag : String) : Bool :=
  isBoundary tag || ["button", "select"].contains tag ||
    (blocks.contains tag && !(["address", "dialog", "div", "p"].contains tag))

/-- A way in which a start tag ends elements. -/
structure Ending where
  starts : List String
  ends : List String
  /-- The elements in one of which they end these only, if there are any. -/
  within : List String
  /-- The elements inside which these stay open. -/
  isKeptBy : String → Bool

/-- All ways in which a start tag ends elements, in the order in which they take effect. -/
def endings : List Ending :=
  [⟨["li"], ["li"], [], keepsItem⟩, ⟨["dd", "dt"], ["dd", "dt"], [], keepsItem⟩,
    ⟨["button"], ["button"], [], isBoundary⟩,
    ⟨"table" :: blocks, ["p"], [], fun tag => isBoundary tag || tag == "button"⟩,
    ⟨headings, headings, [], fun _ => true⟩,
    ⟨["optgroup", "option"], ["option"], [], fun _ => true⟩,
    ⟨["rb", "rp", "rt", "rtc"], ["rb", "rp", "rt"], ["ruby"], fun _ => true⟩,
    ⟨["rb", "rtc"], ["rtc"], ["ruby"], fun _ => true⟩]

/-- The elements that an end tag closes. -/
def closedBy (tag : String) : List String :=
  if headings.contains tag then headings else [tag]

/-- The elements inside which an end tag has no effect on those outside. -/
def blocksEnd (tag inside : String) : Bool :=
  if tag = "template" then false
  else if tag = "table" || (TablePart.ofTag? tag).isSome then ["table", "template"].contains inside
  else isBoundary inside || (tag == "li" && ["ol", "ul"].contains inside) ||
    (tag == "p" && inside == "button") ||
    (["optgroup", "option"].contains tag && inside == "select")

end DomSelect.Markup
