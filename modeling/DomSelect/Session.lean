import DomSelect.Markup.Convert
import DomSelect.Selector.Pipeline

/-!
# Sessions

A session is a sequence of requests that share a log of warnings. Each request has an answer and
the text that it printed. Only raised warnings print: those of a request as such, of a selector
that is read leniently, and of parsed markup.
-/

namespace DomSelect

namespace Session

/-- What can be asked for. -/
inductive Request where
  | warn (warning : Warning)
  | has (warning : Warning)
  | clear
  | compile (selector : String)
  /-- Like `compile`, with the scanner beside the compiler. -/
  | compilePiped (selector : String)
  | compileStrict (selector : String)
  | convert (source : Markup.SourceNode)
  deriving Repr

/-- What a request gives back. -/
inductive Answer where
  | done
  | verdict (value : Bool)
  | chain (value : Chain)
  | tree (value : Tree)
  deriving DecidableEq, Repr

/-- The log after a request, its answer and the text that it printed. -/
structure Reply where
  log : WarningLog
  answer : Answer
  printed : String
  deriving DecidableEq, Repr

/-- An answer that comes with warnings. -/
def reply (log : WarningLog) (warnings : List Warning) (answer : Answer) : Reply :=
  ⟨(log.warnAll warnings).1, answer, (log.warnAll warnings).2⟩

/-- Keep the chain of what was compiled and raise its warning, whose quotation names the
characters of `byNumber` by code point. -/
def keepChain (byNumber : Char → Bool) (log : WarningLog) (compiled : Compiled)
    (selector : String) : Reply :=
  reply log (compiled.warningWith? byNumber selector).toList (.chain compiled.chain)

/-- Perform a request, where quotations name the characters of `byNumber` by code point. -/
def performWith (byNumber : Char → Bool) (log : WarningLog) : Request → Reply
  | .warn warning => reply log [warning] .done
  | .has warning => reply log [] (.verdict (log.has warning))
  | .clear => ⟨WarningLog.empty, .done, ""⟩
  | .compile selector => keepChain byNumber log (compileSelector selector) selector
  | .compilePiped selector => keepChain byNumber log (DomSelect.compilePiped selector) selector
  | .compileStrict selector =>
    reply log [] (.verdict (DomSelect.compileStrict selector).toOption.isSome)
  | .convert source =>
    let (tree, warnings) := Markup.convert source
    reply log warnings (.tree tree)

/-- Perform requests one after the other, where quotations name the characters of `byNumber` by
code point: the replies. -/
def runWith (byNumber : Char → Bool) (log : WarningLog) : List Request → List Reply
  | [] => []
  | request :: rest =>
    let reply := performWith byNumber log request
    reply :: runWith byNumber reply.log rest

/-- Perform requests one after the other: the replies. -/
def run (log : WarningLog) (requests : List Request) : List Reply :=
  runWith Unicode.isUnprintable log requests

end Session

end DomSelect
