/-!
# Tokens of the selector language

A token has a kind, a text and the byte position at which it starts. A stream of tokens ends with
one terminal token: the end of the input, or an error whose text says what was expected.
-/

namespace DomSelect

/-- The kinds of token. -/
inductive TokenKind where
  | elementName
  | wildcard
  /-- The wildcard implied by a term that begins with `.`; its text is empty. -/
  | wildcardShorthand
  | classPrefix
  | className
  | idPrefix
  | id
  | endOfInput
  /-- Something else was expected here; the text says what. -/
  | error
  deriving DecidableEq, Repr, Inhabited

namespace TokenKind

/-- Every kind, in the order of declaration. -/
def all : List TokenKind :=
  [elementName, wildcard, wildcardShorthand, classPrefix, className, idPrefix, id, endOfInput,
    error]

/-- The name under which a kind is listed. -/
def name : TokenKind → String
  | elementName => "ElementName"
  | wildcard => "Wildcard"
  | wildcardShorthand => "WildcardShorthand"
  | classPrefix => "ClassPrefix"
  | className => "ClassName"
  | idPrefix => "IdPrefix"
  | id => "Id"
  | endOfInput => "EndOfInput"
  | error => "Error"

/-- The kind with the given name. -/
def ofName? (s : String) : Option TokenKind := all.find? fun kind => kind.name == s

/-- The kinds that end a stream. -/
def isTerminal : TokenKind → Bool
  | endOfInput | error => true
  | _ => false

end TokenKind

/-- A token and where it starts. -/
structure Token where
  kind : TokenKind
  /-- The text of the token in the selector; for an error, what was expected instead. -/
  text : String
  /-- Byte offset in the selector. -/
  position : Nat
  deriving DecidableEq, Repr, Inhabited

/-- Whether the token ends its stream. -/
def Token.isTerminal (token : Token) : Bool := token.kind.isTerminal

end DomSelect
