/-!
# Documents in files

Why a file cannot be read as a document, in the words of the operating system.
-/

namespace DomSelect.Cli

/-- Why a document cannot be read. -/
inductive ReadFailure where
  | notFound
  | isDirectory
  | notDirectory
  | invalidText
  | other (reason : String)
  deriving DecidableEq, Repr

/-- The reason as a text. -/
def ReadFailure.reason : ReadFailure → String
  | notFound => "No such file or directory (os error 2)"
  | isDirectory => "Is a directory (os error 21)"
  | notDirectory => "Not a directory (os error 20)"
  | invalidText => "stream did not contain valid UTF-8"
  | other reason => reason

/-- The text that the bytes of a document encode. -/
def decodeDocument (bytes : ByteArray) : Except ReadFailure String :=
  match String.fromUTF8? bytes with
  | some text => .ok text
  | none => .error .invalidText

end DomSelect.Cli
