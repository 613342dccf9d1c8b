/-!
# JSON text

Values are written over several lines, each level indented by two spaces more than the one around
it. Empty lists and objects stay on one line. In texts quotes, backslashes and the control
characters below U+0020 are escaped, all other characters stand for themselves.
-/

namespace DomSelect

/-- A JSON value. -/
inductive JsonValue where
  | null
  | number (value : Nat)
  | text (value : String)
  | list (values : List JsonValue)
  /-- Named values, in order. -/
  | object (fields : List (String × JsonValue))
  deriving Repr, Inhabited

namespace JsonValue

/-- A text or no value. -/
def ofText? : Option String → JsonValue
  | none => null
  | some value => text value

/-- The four hexadecimal digits of a control character. -/
def codeDigits (c : Char) : List Char :=
  let digits := Nat.toDigits 16 c.toNat
  List.replicate (4 - digits.length) '0' ++ digits

/-- The written form of a character in a text. -/
def encodeChar (c : Char) : List Char :=
  if c = '"' then ['\\', '"']
  else if c = '\\' then ['\\', '\\']
  else if c = '\x08' then ['\\', 'b']
  else if c = '\t' then ['\\', 't']
  else if c = '\n' then ['\\', 'n']
  else if c = '\x0c' then ['\\', 'f']
  else if c = '\r' then ['\\', 'r']
  else if c.toNat < 0x20 then ['\\', 'u'] ++ codeDigits c
  else [c]

/-- A text between quotes. -/
def encodeText (value : String) : String :=
  String.ofList ('"' :: value.toList.flatMap encodeChar ++ ['"'])

/-- The beginning of a line at a level. -/
def newLine (level : Nat) : String := "\n" ++ String.ofList (List.replicate (2 * level) ' ')

/-- Written values between two brackets, each on lines of its own. -/
def enclose (opening closing : String) (level : Nat) (values : List String) : String :=
  if values.isEmpty then opening ++ closing
  else
    opening ++ newLine (level + 1) ++ ("," ++ newLine (level + 1)).intercalate values ++
      newLine level ++ closing

mutual

/-- The written form of a value at a level. -/
def renderAt (level : Nat) : JsonValue → String
  | null => "null"
  | number value => toString value
  | text value => encodeText value
  | list values => enclose "[" "]" level (renderAll (level + 1) values)
  | object fields => enclose "\x7b" "\x7d" level (renderFields (level + 1) fields)

/-- The written forms of the values of a list. -/
def renderAll (level : Nat) : List JsonValue → List String
  | [] => []
  | value :: rest => renderAt level value :: renderAll level rest

/-- The written forms of the fields of an object. -/
def renderFields (level : Nat) : List (String × JsonValue) → List String
  | [] => []
  | (name, value) :: rest =>
    (encodeText name ++ ": " ++ renderAt level value) :: renderFields level rest

end

/-- The written form of a value. -/
def render (value : JsonValue) : String := renderAt 0 value

end JsonValue

end DomSelect
