import DomSelect.Selector.Compile

/-!
# Scanning and compiling side by side

A producer scans a selector and sends each token into an unbounded queue; a receiver takes tokens
from the other end in the same order. The two act in any order, one event at a time. A send after
the receiver has left fails and stops the producer. The queue is closed for the receiver once it is
empty and the producer has stopped.

`Pipeline.run` performs a schedule of events and skips those that cannot happen. A compiler at the
receiving end has at each moment compiled the tokens taken (`Pipeline.compilation`), and it is done
with a terminal token or a closed queue; `compilePiped` is its outcome.
-/

namespace DomSelect

/-- A producer and a receiver with a queue between them. -/
structure Pipeline where
  /-- The scanner of the producer, `none` once it has stopped. -/
  producer : Option Scanner
  /-- The tokens sent and not yet taken, the oldest first. -/
  queue : List Token
  /-- The tokens taken, the latest first. -/
  taken : List Token
  listening : Bool
  deriving DecidableEq, Repr

namespace Pipeline

/-- What can happen next. -/
inductive Event where
  /-- The producer sends its next token, or finds that the receiver has left. -/
  | send
  | stop
  | receive
  | leave
  deriving DecidableEq, Repr

/-- The pipeline before anything has happened. -/
def ofSelector (selector : String) : Pipeline := ⟨some (Scanner.ofSelector selector), [], [], true⟩

/-- The tokens taken, in order. -/
def received (pipeline : Pipeline) : List Token := pipeline.taken.reverse

/-- The next token of the producer and its scanner after it. -/
def pending? (pipeline : Pipeline) : Option (Token × Scanner) :=
  pipeline.producer.bind (Scanner.next? Unicode.isAlphanumeric)

/-- Perform an event; `none` if it cannot happen. -/
def perform? (pipeline : Pipeline) : Event → Option Pipeline
  | .send =>
    pipeline.pending?.map fun (token, after) =>
      if pipeline.listening then
        { pipeline with producer := some after, queue := pipeline.queue ++ [token] }
      else { pipeline with producer := none }
  | .stop =>
    if pipeline.producer.isSome && pipeline.pending?.isNone then
      some { pipeline with producer := none }
    else none
  | .receive =>
    match pipeline.queue with
    | token :: later =>
      if pipeline.listening then
        some { pipeline with queue := later, taken := token :: pipeline.taken }
      else none
    | [] => none
  | .leave => if pipeline.listening then some { pipeline with listening := false } else none

/-- Perform the events of a schedule, skipping those that cannot happen. -/
def run (schedule : List Event) (pipeline : Pipeline) : Pipeline :=
  schedule.foldl (fun now event => (now.perform? event).getD now) pipeline

/-- Whether the receiver finds the queue closed. -/
def isClosed (pipeline : Pipeline) : Bool :=
  pipeline.listening && pipeline.queue.isEmpty && pipeline.producer.isNone

/-- What a compiler at the receiving end has made of the tokens taken. -/
def compilation (pipeline : Pipeline) : Compilation :=
  pipeline.received.foldl Compilation.receive Compilation.start

/-- Whether a compiler at the receiving end needs no more tokens. -/
def isCompiled (pipeline : Pipeline) : Bool :=
  pipeline.compilation.isFinished || pipeline.isClosed

end Pipeline

/-- A schedule that sends and takes in turns, long enough for every token of the selector. -/
def alternatingSchedule (selector : String) : List Pipeline.Event :=
  (List.replicate (2 * selector.length + 1) [.send, .receive]).flatten ++ [.stop]

/-- The pipeline of a selector after everything was sent and taken. -/
def Pipeline.complete (selector : String) : Pipeline :=
  (Pipeline.ofSelector selector).run (alternatingSchedule selector)

/-- What a selector compiles to, with the scanner beside the compiler. -/
def compilePiped (selector : String) : Compiled :=
  (Pipeline.complete selector).compilation.outcome

end DomSelect
