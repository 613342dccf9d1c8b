import DomSelect.Cli.Report
import DomSelect.Markup.Convert
import DomSelect.Query.Forms
import DomSelect.Tree.Outline

/-!
# The command

A run goes through stages: the tokens, the selector, the chain, the document, its tree, the query.
Each stage that was asked for prints its section; the first one that fails ends the run with exit
code 1 and a message, and what was printed before it stays.

What the arguments ask for, what is in a file and what markup stands for, the command takes from its
`Surroundings`. A list of arguments can also end the run by itself, as one that asks for help does.
-/

namespace DomSelect.Cli

/-- What is asked for. A document is given as a `file` or as `html`. -/
structure Options where
  selector : String
  file : Option String
  html : Option String
  strict : Bool
  json : Bool
  tokens : Bool
  chain : Bool
  forms : Bool
  tree : Bool
  deriving DecidableEq, Repr

/-- The exit code of a run and what it prints. -/
structure Outcome where
  code : Nat
  stdout : String
  stderr : String
  deriving DecidableEq, Repr

/-- What is not up to the command. -/
structure Surroundings where
  /-- What is asked for, or else how the run ends at once. -/
  readArguments : List String → Except Outcome Options
  /-- The text in a file, or else why it cannot be read. -/
  textIn : String → Except String String
  /-- What markup stands for. -/
  readMarkup : String → Markup.SourceNode

/-- Why a run fails. -/
inductive Failure where
  | selector (error : SyntaxError)
  | noDocument
  | unreadable (file reason : String)
  | query (error : QueryError)
  deriving DecidableEq, Repr

/-- The text of the failure. -/
def Failure.message : Failure → String
  | selector error => error.message
  | noDocument => "Querying requires a file path or --html"
  | unreadable file reason => "failed to read " ++ file ++ "\n\nCaused by:\n    " ++ reason
  | query error => error.message

/-- What a run has printed so far. -/
structure Output where
  stdout : String
  stderr : String
  deriving DecidableEq, Repr

namespace Output

/-- Nothing printed. -/
def empty : Output := ⟨"", ""⟩

/-- Print a section if it was asked for. -/
def showIf (output : Output) (wanted : Bool) (text : String) : Output :=
  if wanted then { output with stdout := output.stdout ++ text } else output

/-- Print warnings, none of them twice. -/
def warn (output : Output) (warnings : List Warning) : Output :=
  { output with stderr := output.stderr ++ (WarningLog.empty.warnAll warnings).2 }

/-- End the run without a failure. -/
def succeed (output : Output) : Outcome := ⟨0, output.stdout, output.stderr⟩

/-- End the run with a failure. -/
def fail (output : Output) (failure : Failure) : Outcome :=
  ⟨1, output.stdout, output.stderr ++ "Error: " ++ failure.message ++ "\n"⟩

end Output

namespace Options

/-- Which matches are reported. -/
def mode (options : Options) : MatchMode := if options.strict then .strict else .inclusive

/-- The text of the document: the one given, or the file's; `none` if there is neither. -/
def document? (options : Options) (textIn : String → Except String String) :
    Option (Except Failure String) :=
  match options.html, options.file with
  | some html, _ => some (.ok html)
  | none, some file => some ((textIn file).mapError (.unreadable file))
  | none, none => none

/-- The nodes that a query of the document reports. -/
def query (options : Options) (tree : Tree) (chain : Chain) : Except Failure (List NodeId) :=
  if options.forms then
    match tree.findForm options.selector with
    | .ok form => .ok [form]
    | .error error => .error (.query error)
  else .ok (tree.findAllWith chain options.mode).nodes

/-- The stages that need the document. -/
def evaluateIn (options : Options) (chain : Chain) (output : Output)
    (source : Markup.SourceNode) : Outcome :=
  let (tree, warnings) := Markup.convert source
  let output := (output.warn warnings).showIf options.tree
    (line (Terminal.bold "=== DOM Tree ===") ++ tree.outline Tree.root ++ line "")
  match options.query tree chain with
  | .error failure => output.fail failure
  | .ok nodes => (output.showIf true (matchSection options.json (matchesAt tree nodes))).succeed

/-- Go through all stages. -/
def evaluate (options : Options) (surroundings : Surroundings) : Outcome :=
  let output := Output.empty.showIf options.tokens
    (tokenSection options.json (tokenize options.selector))
  match compileStrict options.selector with
  | .error error => output.fail (.selector error)
  | .ok chain =>
    let output := output.showIf options.chain (chainSection options.json chain)
    match options.document? surroundings.textIn with
    | none => if options.tokens || options.chain then output.succeed else output.fail .noDocument
    | some (.error failure) => output.fail failure
    | some (.ok markup) => options.evaluateIn chain output (surroundings.readMarkup markup)

end Options

/-- Run the command with some arguments. -/
def run (surroundings : Surroundings) (arguments : List String) : Outcome :=
  match surroundings.readArguments arguments with
  | .error outcome => outcome
  | .ok options => options.evaluate surroundings

end DomSelect.Cli
