import DomSelect.Tree.Element

/-!
# Drawings and formulas

Inside `svg` and `math` elements have other meanings than outside: tags that are known there hold
markup, whatever they hold elsewhere. Some of their elements hold ordinary content again. Names are
read in lower case and written as their vocabulary spells them.
-/

namespace DomSelect.Markup

/-- The vocabulary that an element belongs to. -/
inductive Namespace where
  | html
  /-- Drawings. -/
  | svg
  /-- Formulas. -/
  | math
  deriving DecidableEq, Repr

/-! ## Elements with ordinary content -/

/-- The elements of formulas that hold text. -/
def isFormulaText (space : Namespace) (tag : String) : Bool :=
  space == .math && ["mi", "mn", "mo", "ms", "mtext"].contains tag

/-- The elements of drawings that hold ordinary content. -/
def isDrawingText (space : Namespace) (tag : String) : Bool :=
  space == .svg && ["desc", "foreignObject", "title"].contains tag

/-- The elements of drawings and formulas that hold ordinary content. -/
def holdsHtml (space : Namespace) (tag : String) : Bool :=
  isFormulaText space tag || isDrawingText space tag

/-! ## Start tags -/

/-- The elements of documents that end the drawings and formulas in which they begin. -/
def leavesForeign (data : Element) : Bool :=
  ["b", "big", "blockquote", "body", "br", "center", "code", "dd", "div", "dl", "dt", "em",
    "embed", "h1", "h2", "h3", "h4", "h5", "h6", "head", "hr", "i", "img", "li", "listing", "menu",
    "meta", "nobr", "ol", "p", "pre", "ruby", "s", "small", "span", "strike", "strong", "sub",
    "sup", "table", "tt", "u", "ul", "var"].contains data.tag ||
  (data.tag == "font" &&
    data.attributes.any fun attr => ["color", "face", "size"].contains attr.name)

/-- Whether an element that begins inside another belongs to the vocabulary of that one, rather
than to documents. -/
def staysForeign (space : Namespace) (holder tag : String) : Bool :=
  if space = .html || isDrawingText space holder then false
  else if isFormulaText space holder then ["malignmark", "mglyph"].contains tag
  else !(space == .math && holder == "annotation-xml" && tag == "svg")

/-! ## Names -/

/-- The tags in drawings that have letters in upper case. -/
def drawingTags : List String :=
  ["altGlyph", "altGlyphDef", "altGlyphItem", "animateColor", "animateMotion", "animateTransform",
    "clipPath", "feBlend", "feColorMatrix", "feComponentTransfer", "feComposite",
    "feConvolveMatrix", "feDiffuseLighting", "feDisplacementMap", "feDistantLight",
    "feDropShadow", "feFlood", "feFuncA", "feFuncB", "feFuncG", "feFuncR", "feGaussianBlur",
    "feImage", "feMerge", "feMergeNode", "feMorphology", "feOffset", "fePointLight",
    "feSpecularLighting", "feSpotLight", "feTile", "feTurbulence", "foreignObject", "glyphRef",
    "linearGradient", "radialGradient", "textPath"]

/-- The names of attributes in drawings that have letters in upper case. -/
def drawingAttributes : List String :=
  ["attributeName", "attributeType", "baseFrequency", "baseProfile", "calcMode", "clipPathUnits",
    "diffuseConstant", "edgeMode", "filterUnits", "glyphRef", "gradientTransform",
    "gradientUnits", "kernelMatrix", "kernelUnitLength", "keyPoints", "keySplines", "keyTimes",
    "lengthAdjust", "limitingConeAngle", "markerHeight", "markerUnits", "markerWidth",
    "maskContentUnits", "maskUnits", "numOctaves", "pathLength", "patternContentUnits",
    "patternTransform", "patternUnits", "pointsAtX", "pointsAtY", "pointsAtZ", "preserveAlpha",
    "preserveAspectRatio", "primitiveUnits", "refX", "refY", "repeatCount", "repeatDur",
    "requiredExtensions", "requiredFeatures", "specularConstant", "specularExponent",
    "spreadMethod", "startOffset", "stdDeviation", "stitchTiles", "surfaceScale",
    "systemLanguage", "tableValues", "targetX", "targetY", "textLength", "viewBox", "viewTarget",
    "xChannelSelector", "yChannelSelector", "zoomAndPan"]

/-- The names of attributes that have a qualifier, which is left out, and their local parts. -/
def qualifiedAttributes : List (String × String) :=
  [("xlink:actuate", "actuate"), ("xlink:arcrole", "arcrole"), ("xlink:href", "href"),
    ("xlink:role", "role"), ("xlink:show", "show"), ("xlink:title", "title"),
    ("xlink:type", "type"), ("xml:base", "base"), ("xml:lang", "lang"), ("xml:space", "space"),
    ("xmlns:xlink", "xlink")]

/-- A name as one of the given names spells it. -/
def respell (names : List String) (name : String) : String :=
  (names.find? fun spelled => spelled.toLower == name).getD name

/-- The name of an attribute as a vocabulary writes it. -/
def attributeName (space : Namespace) (name : String) : String :=
  match space with
  | .html => name
  | .svg => (qualifiedAttributes.lookup name).getD (respell drawingAttributes name)
  | .math => (qualifiedAttributes.lookup name).getD (respell ["definitionURL"] name)

/-- An element as a vocabulary writes it. -/
def inNamespace (space : Namespace) (data : Element) : Element :=
  ⟨if space = .svg then respell drawingTags data.tag else data.tag,
    data.attributes.map fun attr => ⟨attributeName space attr.name, attr.value⟩⟩

end DomSelect.Markup
