import DomSelect.Selector.Ident
import DomSelect.Selector.Token
import DomSelect.Text.Width
import DomSelect.Unicode.Alphanumeric

/-!
# Scanning a selector

A scanner holds the characters not yet read, their byte position and a state. A step runs one
state: it reads characters, emits a token, or only changes the state. The state `done` follows a
terminal token and has no successor.

Which characters may begin an element name is an argument of every function here: any alphanumeric
one does, though an identifier begins with an ASCII character only. `Scanner.next?` repeats steps
up to the next token, `tokenizeWith` up to the last one.
-/

namespace DomSelect

/-- What a scanner asks for where it stops with an error. -/
inductive Expected where
  | elementSpecification
  | elementName
  | id
  | className
  deriving DecidableEq, Repr

/-- The text of an error token. -/
def Expected.text : Expected → String
  | elementSpecification => "expected element specification"
  | elementName => "expected element name"
  | id => "expected id"
  | className => "expected class name"

namespace Scanner

/-- Where a scanner is in the selector. -/
inductive State where
  | start
  | idPrefix
  | idName
  | elementName
  /-- After an element name or `*`, where a `.` adds a class to the term. -/
  | elementSuffix
  | classPrefix
  | className
  /-- After a terminal token. -/
  | done
  deriving DecidableEq, Repr, Inhabited

end Scanner

/-- The characters not yet read, the byte position of the first of them, and the state. -/
structure Scanner where
  rest : List Char
  /-- Number of bytes read. -/
  position : Nat
  state : Scanner.State
  deriving DecidableEq, Repr

namespace Scanner

/-- The scanner at the beginning of a selector. -/
def ofSelector (selector : String) : Scanner := ⟨selector.toList, 0, .start⟩

/-- The characters that separate terms. -/
def isBlank (c : Char) : Bool := c == ' ' || c == '\t'

/-- The scanner in another state. -/
def goto (scanner : Scanner) (state : State) : Scanner := { scanner with state }

/-- The scanner after the characters `taken`, of which `rest` is what follows. -/
def advance (scanner : Scanner) (taken rest : List Char) (state : State) : Scanner :=
  ⟨rest, scanner.position + utf8Width taken, state⟩

/-- Stop with an error at the present position. -/
def fail (scanner : Scanner) (expected : Expected) : Option Token × Scanner :=
  (some ⟨.error, expected.text, scanner.position⟩, scanner.goto .done)

/-- The scanner after the blanks in front of it. -/
def skipBlanks (scanner : Scanner) : Scanner :=
  scanner.advance (scanner.rest.takeWhile isBlank) (scanner.rest.dropWhile isBlank) scanner.state

/-- Read one character as a token of the given kind. -/
def takeChar (scanner : Scanner) (kind : TokenKind) (next : State) : Option Token × Scanner :=
  (some ⟨kind, String.ofList (scanner.rest.take 1), scanner.position⟩,
    scanner.advance (scanner.rest.take 1) (scanner.rest.drop 1) next)

/-- Read an identifier as a token of the given kind. -/
def takeIdent (scanner : Scanner) (kind : TokenKind) (expected : Expected) (next : State) :
    Option Token × Scanner :=
  match Ident.split? scanner.rest with
  | none => scanner.fail expected
  | some (taken, rest) =>
    (some ⟨kind, String.ofList taken, scanner.position⟩, scanner.advance taken rest next)

section

variable (isAlphanumeric : Char → Bool)

/-- Begin a term at the first character, no blank, of what is left. -/
def beginTerm (scanner : Scanner) : Option Token × Scanner :=
  match scanner.rest.head? with
  | none => (some ⟨.endOfInput, "", scanner.position⟩, scanner.goto .done)
  | some c =>
    if c = '#' then (none, scanner.goto .idPrefix)
    else if c = '.' then
      (some ⟨.wildcardShorthand, "", scanner.position⟩, scanner.goto .classPrefix)
    else if c = '*' then scanner.takeChar .wildcard .elementSuffix
    else if c = '-' || isAlphanumeric c then (none, scanner.goto .elementName)
    else scanner.fail .elementSpecification

/-- Run the present state once: the token it emits, if any, and the scanner after it. -/
def step (scanner : Scanner) : Option Token × Scanner :=
  match scanner.state with
  | .start => scanner.skipBlanks.beginTerm isAlphanumeric
  | .idPrefix => scanner.takeChar .idPrefix .idName
  | .idName => scanner.takeIdent .id .id .start
  | .elementName => scanner.takeIdent .elementName .elementName .elementSuffix
  | .elementSuffix =>
    (none, scanner.goto (if scanner.rest.head? = some '.' then .classPrefix else .start))
  | .classPrefix => scanner.takeChar .classPrefix .className
  | .className => scanner.takeIdent .className .className .start
  | .done => (none, scanner)

/-- The first token within `steps` steps, with the scanner after it. -/
def nextWithin : Nat → Scanner → Option (Token × Scanner)
  | 0, _ => none
  | steps + 1, scanner =>
    if scanner.state = .done then none
    else match scanner.step isAlphanumeric with
      | (some token, after) => some (token, after)
      | (none, after) => nextWithin steps after

/-- The next token, `none` once a terminal token has been emitted. At most two steps in a row emit
nothing, so three are enough. -/
def next? (scanner : Scanner) : Option (Token × Scanner) := nextWithin isAlphanumeric 3 scanner

/-- At most `count` tokens, up to the terminal one. -/
def drain : Nat → Scanner → List Token
  | 0, _ => []
  | count + 1, scanner =>
    match scanner.next? isAlphanumeric with
    | none => []
    | some (token, after) => token :: drain count after

/-- All tokens that are left. A character gives at most two tokens, and one more is terminal. -/
def tokens (scanner : Scanner) : List Token :=
  scanner.drain isAlphanumeric (2 * scanner.rest.length + 1)

end

end Scanner

/-- The tokens of a selector, where `isAlphanumeric` tells which characters may begin a name. -/
def tokenizeWith (isAlphanumeric : Char → Bool) (selector : String) : List Token :=
  (Scanner.ofSelector selector).tokens isAlphanumeric

/-- The tokens of a selector. -/
def tokenize (selector : String) : List Token := tokenizeWith Unicode.isAlphanumeric selector

end DomSelect
