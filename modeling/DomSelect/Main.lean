import DomSelect.Cli.Arguments
import DomSelect.Cli.Files
import DomSelect.Markup.Document

/-!
# The program

Reads the document that the arguments name, runs the command and prints what it says.
-/

namespace DomSelect.Cli

/-- Read a document from the file system. -/
def readDocument (file : String) : IO (Except String String) := do
  try
    return (decodeDocument (← IO.FS.readBinFile file)).mapError (·.reason)
  catch failure =>
    match failure with
    | .noFileOrDirectory .. | .noSuchThing .. => return .error ReadFailure.notFound.reason
    | .inappropriateType _ code _ =>
      return .error (if code = 20 then ReadFailure.notDirectory else .isDirectory).reason
    | other => return .error (ReadFailure.other (toString other)).reason

end DomSelect.Cli

open DomSelect DomSelect.Cli

/-- Run the command on the arguments of the program. -/
def main (arguments : List String) : IO UInt32 := do
  let file ←
    match Cli.readArguments arguments with
    | .ok ⟨_, some file, none, _, _, _, _, _, _⟩ => readDocument file
    | _ => pure (.error ReadFailure.notFound.reason)
  let outcome := run ⟨Cli.readArguments, fun _ => file, Markup.readDocument⟩ arguments
  let stdout ← IO.getStdout
  let stderr ← IO.getStderr
  stdout.putStr outcome.stdout
  stderr.putStr outcome.stderr
  return outcome.code.toUInt32
