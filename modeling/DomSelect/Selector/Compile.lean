import DomSelect.Selector.Chain
import DomSelect.Selector.Scanner
import DomSelect.Text.Quoted
import DomSelect.Warning

/-!
# From tokens to chains

A compilation receives tokens one by one. Ids, names and wildcards add a term, a class name goes to
the term before it, and the marks `#` and `.` carry nothing. The first terminal token finishes the
compilation, with an error if it is an error token; what follows it is ignored. A stream may also
end without a terminal token.

The outcome holds the chain built so far and the error. A lenient reader keeps the chain and turns
the error into a warning; a strict one has no chain if there is an error.
-/

namespace DomSelect

/-- The error token that ended a stream. -/
structure LexError where
  offset : Nat
  expected : String
  deriving DecidableEq, Repr, Inhabited

/-- What a stream of tokens compiles to. -/
structure Compiled where
  chain : Chain
  error : Option LexError
  deriving DecidableEq, Repr, Inhabited

/-- A selector that does not tokenize to its end. -/
structure SyntaxError where
  selector : String
  offset : Nat
  expected : String
  /-- The chain of the text before the error. -/
  built : Chain
  deriving DecidableEq, Repr, Inhabited

/-- The text of the error. -/
def SyntaxError.message (error : SyntaxError) : String :=
  "invalid selector " ++ Quoted.quote error.selector ++ " at byte " ++ toString error.offset ++ ": "
    ++ error.expected

/-! ## Folding tokens -/

/-- A compilation that still receives tokens, or a finished one. -/
inductive Compilation where
  /-- The terms of the tokens received, the latest first. -/
  | building (terms : List Term)
  | finished (outcome : Compiled)
  deriving DecidableEq, Repr

namespace Compilation

/-- Terms, the latest first, with a class on the latest. A class neither begins a chain nor
qualifies an id term; in both cases a wildcard is added to carry it. -/
def setClass (value : String) : List Term → List Term
  | [] => [Term.wildcard.withClass value]
  | last :: earlier =>
    if last.isIdTerm then Term.wildcard.withClass value :: last :: earlier
    else last.withClass value :: earlier

/-- A compilation that has received no token. -/
def start : Compilation := building []

/-- Receive one token. -/
def receive : Compilation → Token → Compilation
  | finished outcome, _ => finished outcome
  | building terms, token =>
    match token.kind with
    | .id => building (Term.byId token.text :: terms)
    | .wildcard | .wildcardShorthand => building (Term.wildcard :: terms)
    | .elementName => building (Term.ofName token.text :: terms)
    | .className => building (setClass token.text terms)
    | .idPrefix | .classPrefix => building terms
    | .endOfInput => finished ⟨⟨terms.reverse⟩, none⟩
    | .error => finished ⟨⟨terms.reverse⟩, some ⟨token.position, token.text⟩⟩

/-- Whether a terminal token was received. -/
def isFinished : Compilation → Bool
  | building _ => false
  | finished _ => true

/-- The outcome once no more tokens come. -/
def outcome : Compilation → Compiled
  | building terms => ⟨⟨terms.reverse⟩, none⟩
  | finished outcome => outcome

end Compilation

/-- What a list of tokens compiles to, up to its first terminal token. -/
def compileTokens (tokens : List Token) : Compiled :=
  (tokens.foldl Compilation.receive Compilation.start).outcome

namespace Compiled

/-- The warning about a selector whose end was ignored, with the set of characters that its
quotation names by code point. -/
def warningWith? (byNumber : Char → Bool) (compiled : Compiled) (selector : String) :
    Option Warning :=
  compiled.error.map fun error =>
    ⟨"Selector", "selector " ++ Quoted.quoteWith byNumber selector ++ " truncated at byte " ++
      toString error.offset ++ ": " ++ error.expected⟩

/-- The chain, or the error about the selector it was compiled from. -/
def result (compiled : Compiled) (selector : String) : Except SyntaxError Chain :=
  match compiled.error with
  | none => .ok compiled.chain
  | some error => .error ⟨selector, error.offset, error.expected, compiled.chain⟩

end Compiled

/-! ## Selectors -/

/-- What a selector compiles to, where `isAlphanumeric` tells which characters may begin a name. -/
def compileSelectorWith (isAlphanumeric : Char → Bool) (selector : String) : Compiled :=
  compileTokens (tokenizeWith isAlphanumeric selector)

/-- What a selector compiles to. -/
def compileSelector (selector : String) : Compiled := compileTokens (tokenize selector)

/-- The chain of a selector up to its first error. -/
def compile (selector : String) : Chain := (compileSelector selector).chain

/-- The chain of a selector that has no error, where `isAlphanumeric` tells which characters may
begin a name. -/
def compileStrictWith (isAlphanumeric : Char → Bool) (selector : String) :
    Except SyntaxError Chain :=
  (compileSelectorWith isAlphanumeric selector).result selector

/-- The chain of a selector that has no error. -/
def compileStrict (selector : String) : Except SyntaxError Chain :=
  (compileSelector selector).result selector

end DomSelect
