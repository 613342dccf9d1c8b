import DomSelect.Markup.Reference
import DomSelect.Markup.Vocabulary
import DomSelect.Tree.Element

/-!
# The pieces of markup

Markup is a sequence of tags, texts, comments and declarations. Tags and attribute names are in
lower case, references in texts and attribute values are replaced, and of several attributes with
one name the first is kept. Where the content of an element is text, it is one piece, up to the end
tag. Null characters are kept in the pieces of text outside of these elements; anywhere else the
replacement character stands for them.
-/

namespace DomSelect.Markup

/-- A piece of markup. -/
inductive Piece where
  /-- The start of an element, which may be marked as empty. -/
  | startTag (data : Element) (isEmpty : Bool)
  | endTag (tag : String)
  | text (data : String)
  | comment (data : String)
  | doctype
  deriving DecidableEq, Repr

/-! ## Characters -/

/-- White space in markup. -/
def isSpace (c : Char) : Bool :=
  c == ' ' || c == '\t' || c == '\n' || c == '\x0c' || c == '\r'

/-- A character with the replacement character in place of the null character. -/
def replaceNull (c : Char) : Char := if c = '\x00' then '\uFFFD' else c

/-- A name: in lower case, as far as its letters are ASCII. -/
def lower (text : List Char) : String := String.ofList (text.map (replaceNull ·.toLower))

/-- Characters as text, with line feeds for all line ends. -/
def plainText (text : List Char) : String := String.ofList ((unifyLineEnds text).map replaceNull)

/-- Characters as text, with line feeds for all line ends and references replaced. -/
def decodedText (text : List Char) : String := String.ofList ((decodeFrom 0 text).map replaceNull)

/-- The text before the first occurrence of `block`, and what follows that occurrence. -/
def breakAfter (block : List Char) : List Char → List Char × List Char
  | [] => ([], [])
  | c :: rest =>
    if block.isPrefixOf (c :: rest) then ([], (c :: rest).drop block.length)
    else
      let (before, after) := breakAfter block rest
      (c :: before, after)

/-! ## Tags -/

/-- Characters of a tag. -/
def isTagChar (c : Char) : Bool := !isSpace c && c != '/' && c != '>'

/-- Characters of the name of an attribute, after its first one. -/
def isAttributeChar (c : Char) : Bool := isTagChar c && c != '='

/-- A value without quotation marks, and what follows it. The first `named` characters belong to a
reference, and so to the value. -/
def breakUnquoted : Nat → List Char → List Char × List Char
  | _, [] => ([], [])
  | named + 1, c :: rest =>
    let (value, after) := breakUnquoted named rest
    (c :: value, after)
  | 0, c :: rest =>
    if isSpace c || c == '>' then ([], c :: rest)
    else
      let named := if c = '&' then ((reference? rest).map (·.2)).getD 0 else 0
      let (value, after) := breakUnquoted named rest
      (c :: value, after)

/-- What follows the white space before a value. A line feed takes the character after it along if
a carriage return is before it; the argument says whether one is before the text. -/
def skipBeforeValue : Bool → List Char → List Char
  | true, '\n' :: c :: rest => skipBeforeValue (c == '\r') rest
  | _, c :: rest => if isSpace c then skipBeforeValue (c == '\r') rest else c :: rest
  | _, [] => []

/-- The value of an attribute, after the `=`, and what follows it. -/
def readValue (text : List Char) : String × List Char :=
  match skipBeforeValue false text with
  | '"' :: rest =>
    let (value, after) := breakAfter ['"'] rest
    (decodedText value, after)
  | '\'' :: rest =>
    let (value, after) := breakAfter ['\''] rest
    (decodedText value, after)
  | rest =>
    let (value, after) := breakUnquoted 0 rest
    (decodedText value, after)

/-- What follows white space and slashes in a tag, and whether a slash is before it. The first
argument says whether a slash is before the text. -/
def skipInTag : Bool → List Char → Bool × List Char
  | slash, c :: rest =>
    if isSpace c || c == '/' then skipInTag (c == '/') rest else (slash, c :: rest)
  | slash, [] => (slash, [])

/-- The attributes of a tag, at most `count`, whether a slash ends the tag, and what follows it. -/
def readAttributes : Nat → List Char → List Attribute × Bool × List Char
  | 0, text => ([], false, text)
  | count + 1, text =>
    match skipInTag false text with
    | (slash, []) => ([], slash, [])
    | (slash, '>' :: rest) => ([], slash, rest)
    | (_, first :: rest) =>
      let name := lower (first :: rest.takeWhile isAttributeChar)
      let (value, after) :=
        match (rest.dropWhile isAttributeChar).dropWhile isSpace with
        | '=' :: written => readValue written
        | other => ("", other)
      let (attributes, slash, last) := readAttributes count after
      (⟨name, value⟩ :: attributes, slash, last)

/-- The attributes whose name is not the name of one before them. -/
def firstOfEachName : List Attribute → List Attribute
  | [] => []
  | first :: rest => first :: (firstOfEachName rest).filter fun other => other.name != first.name

/-- A tag, after the `<`, with at most `count` attributes, whether a slash ends it, and what follows
it. -/
def readTag (count : Nat) (text : List Char) : Element × Bool × List Char :=
  let (attributes, slash, after) := readAttributes count (text.dropWhile isTagChar)
  (⟨lower (text.takeWhile isTagChar), firstOfEachName attributes⟩, slash, after)

/-! ## Comments -/

/-- A comment, after its first characters, and what follows it. -/
def breakComment : List Char → List Char × List Char
  | [] => ([], [])
  | '-' :: '-' :: '>' :: rest | '-' :: '-' :: '!' :: '>' :: rest => ([], rest)
  | c :: rest =>
    let (data, after) := breakComment rest
    (c :: data, after)

/-- A comment, after the `<!--`, and what follows it. It may end at once. -/
def readComment (text : List Char) : Piece × List Char :=
  match text with
  | '>' :: rest | '-' :: '>' :: rest => (.comment "", rest)
  | _ =>
    let (data, after) := breakComment text
    (.comment (plainText data), after)

/-- Anything else up to a `>` as a comment, and what follows it. -/
def readOtherComment (text : List Char) : Piece × List Char :=
  let (data, after) := breakAfter ['>'] text
  (.comment (plainText data), after)

/-! ## Pieces -/

/-- The piece at the head of a text that is not empty, and what follows it. A tag has at most
`count` attributes, those of an end tag being ignored. Where neither a tag nor a document type
follows `</`, `<!` or `<?`, it is a comment, except for the text that drawings and formulas, which
the content may belong to, hold between `<![CDATA[` and `]]>`. -/
def readPiece (isForeign : Bool) (count : Nat) (text : List Char) : Piece × List Char :=
  match text with
  | '<' :: '!' :: '-' :: '-' :: rest => readComment rest
  | '<' :: '!' :: rest =>
    if lower (rest.take 7) = "doctype" then (.doctype, (breakAfter ['>'] rest).2)
    else if isForeign && "[CDATA[".toList.isPrefixOf rest then
      let (data, after) := breakAfter "]]>".toList (rest.drop 7)
      (.text (String.ofList (unifyLineEnds data)), after)
    else readOtherComment rest
  | '<' :: '?' :: rest => readOtherComment ('?' :: rest)
  | '<' :: '/' :: '>' :: rest => (.text "", rest)
  | '<' :: '/' :: c :: rest =>
    if c.isAlpha then
      let (data, _, after) := readTag count (c :: rest)
      (.endTag data.tag, after)
    else readOtherComment (c :: rest)
  | '<' :: c :: rest =>
    if c.isAlpha then
      let (data, slash, after) := readTag count (c :: rest)
      (.startTag data slash, after)
    else (.text "<", c :: rest)
  | c :: rest =>
    (.text (decode (c :: rest.takeWhile (· != '<'))), rest.dropWhile (· != '<'))
  | [] => (.text "", [])

/-! ## Content that is text -/

/-- Whether a text goes on with a tag of this name, after its first characters: the name may be in
any case, and it goes up to white space, `/` or `>`. -/
def startsWithName (tag : String) (text : List Char) : Bool :=
  lower (text.take tag.length) == tag && (text.drop tag.length).head?.any (!isTagChar ·)

/-- Whether a text begins with the end tag of an element. -/
def startsWithEnd (tag : String) (text : List Char) : Bool :=
  match text with
  | '<' :: '/' :: rest => startsWithName tag rest
  | _ => false

/-- The text up to the end tag of an element, and what follows that text. -/
def breakBeforeEnd (tag : String) : List Char → List Char × List Char
  | [] => ([], [])
  | c :: rest =>
    if startsWithEnd tag (c :: rest) then ([], c :: rest)
    else
      let (before, after) := breakBeforeEnd tag rest
      (c :: before, after)

/-- Where a place in a script lies. -/
inductive ScriptPlace where
  | outside
  | comment
  /-- In a script that a comment holds. -/
  | innerScript
  deriving DecidableEq, Repr

/-- The place before the second character of a text, given the place before the first. -/
def ScriptPlace.next (place : ScriptPlace) (text : List Char) : ScriptPlace :=
  match place, text with
  | .outside, '<' :: '!' :: '-' :: '-' :: _ => .comment
  | .outside, _ => .outside
  | _, '-' :: '-' :: '>' :: _ => .outside
  | .comment, '<' :: rest => if startsWithName "script" rest then .innerScript else .comment
  | .comment, _ => .comment
  | .innerScript, _ => if startsWithEnd "script" text then .comment else .innerScript

/-- The text of a script up to its end tag, and what follows that text. -/
def breakBeforeScriptEnd : ScriptPlace → List Char → List Char × List Char
  | _, [] => ([], [])
  | place, c :: rest =>
    if place != .innerScript && startsWithEnd "script" (c :: rest) then ([], c :: rest)
    else
      let (before, after) := breakBeforeScriptEnd (place.next (c :: rest)) rest
      (c :: before, after)

/-- The content of an element if it is text, and what follows it. -/
def readContent? (tag : String) (text : List Char) : Option (Piece × List Char) :=
  match contentForm tag with
  | .markup => none
  | .text =>
    let (content, after) := breakBeforeEnd tag text
    some (.text (decodedText content), after)
  | .verbatim =>
    let (content, after) :=
      if tag = "script" then breakBeforeScriptEnd .outside text else breakBeforeEnd tag text
    some (.text (plainText content), after)

/-- A piece without a line feed at the beginning of its text. -/
def Piece.dropLineFeed (piece : Piece) : Piece :=
  match piece with
  | .text data =>
    match data.toList with
    | '\n' :: rest => .text (String.ofList rest)
    | _ => piece
  | _ => piece

end DomSelect.Markup
