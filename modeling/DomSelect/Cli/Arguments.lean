import DomSelect.Cli.Command

/-!
# Command line arguments

`readArguments` is the reader of arguments that `main` runs the command with.

A selector and a file are given by their places, everything else by a flag that begins with two
dashes. Flags may stand anywhere up to a lone `--`, after which every argument is taken by its
place; a lone `-` always is. `--html` takes a value, from the next argument or after `=`; a next
argument that begins with a dash, `-` itself excepted, is none.

Arguments are read from left to right. The first one that is refused, or that asks for help or the
version, decides; that the selector is missing, or that both a file and `--html` are given, shows at
the end.
-/

namespace DomSelect.Cli

/-- How arguments are to be given. -/
def usage : String :=
  "Usage: mechanize [--strict] [--json] [--tokens] [--chain] [--forms] [--tree] [--html <HTML>] " ++
    "<SELECTOR> [FILE]\n"

/-- The end of a run whose arguments are refused. -/
def refusal : Outcome := ⟨2, "", usage⟩

/-- The end of a run that is asked for help. -/
def help : Outcome where
  code := 0
  stdout :=
    "Mechanize: locate elements and forms in HTML with a small selector language\n\n" ++ usage
  stderr := ""

/-- The end of a run that is asked for the version. -/
def version : Outcome := ⟨0, "mechanize 0.1.0\n", ""⟩

/-- The flags without a value. -/
inductive Switch where
  | strict | json | tokens | chain | forms | tree
  deriving DecidableEq, Repr

/-- The switch with the given name. -/
def Switch.ofName? : String → Option Switch
  | "--strict" => some strict
  | "--json" => some json
  | "--tokens" => some tokens
  | "--chain" => some chain
  | "--forms" => some forms
  | "--tree" => some tree
  | _ => none

/-- What the arguments read so far have set: those taken by their `places`, the value of `--html`
and the switches. -/
structure Reading where
  places : List String
  html : Option String
  switches : List Switch
  deriving DecidableEq, Repr

namespace Reading

/-- Nothing read. -/
def empty : Reading := ⟨[], none, []⟩

/-- Take an argument by its place. There are two places, and the second cannot be empty. -/
def place? (reading : Reading) (argument : String) : Option Reading :=
  match reading.places with
  | [] => some { reading with places := [argument] }
  | [selector] =>
    if argument = "" then none else some { reading with places := [selector, argument] }
  | _ => none

/-- Take all arguments by their places. -/
def placeAll? (reading : Reading) : List String → Option Reading
  | [] => some reading
  | argument :: rest => (reading.place? argument).bind (·.placeAll? rest)

/-- Set the value of `--html`, once. -/
def setHtml? (reading : Reading) (value : String) : Option Reading :=
  if reading.html.isSome then none else some { reading with html := some value }

/-- Set a switch, once. -/
def set? (reading : Reading) (switch : Switch) : Option Reading :=
  if reading.switches.contains switch then none
  else some { reading with switches := switch :: reading.switches }

/-- What was read in the end. -/
def finish (reading : Reading) : Except Outcome Options :=
  match reading.places with
  | [] => .error refusal
  | selector :: rest =>
    if reading.html.isSome && !rest.isEmpty then .error refusal
    else
      let has := reading.switches.contains
      .ok ⟨selector, rest.head?, reading.html, has .strict, has .json, has .tokens, has .chain,
        has .forms, has .tree⟩

end Reading

/-- Whether an argument can only be a flag. -/
def looksLikeFlag (argument : String) : Bool :=
  argument.toList.head? == some '-' && argument != "-"

/-- The value in an argument of the form `--html=value`. -/
def htmlValue? (argument : String) : Option String :=
  if "--html=".toList.isPrefixOf argument.toList then
    some (String.ofList (argument.toList.drop "--html=".length))
  else none

/-- The end of a run with an argument that asks for help or the version. After a single letter
more may follow. -/
def answer? (argument : String) : Option Outcome :=
  if argument = "--version" || "-V".toList.isPrefixOf argument.toList then some version
  else if argument = "--help" || "-h".toList.isPrefixOf argument.toList then some help
  else none

/-- Read arguments from left to right. -/
def readFrom (reading : Reading) : List String → Except Outcome Options
  | [] => reading.finish
  | "--html" :: value :: rest =>
    if looksLikeFlag value then .error refusal
    else match reading.setHtml? value with
      | none => .error refusal
      | some reading => readFrom reading rest
  | "--" :: rest =>
    match reading.placeAll? rest with
    | none => .error refusal
    | some reading => reading.finish
  | argument :: rest =>
    let next :=
      if !looksLikeFlag argument then reading.place? argument
      else match htmlValue? argument, Switch.ofName? argument with
        | some value, _ => reading.setHtml? value
        | none, some switch => reading.set? switch
        | none, none => none
    match answer? argument with
    | some outcome => .error outcome
    | none =>
      match next with
      | none => .error refusal
      | some reading => readFrom reading rest

/-- What arguments ask for, or else how the run ends at once. -/
def readArguments (arguments : List String) : Except Outcome Options :=
  readFrom Reading.empty arguments

end DomSelect.Cli
