import DomSelect.Text.CodeUnit

/-!
# Identifiers

An identifier is an optional `-`, a first piece and any number of further pieces. A piece is a
name unit or an escape; the first piece must not be a digit or a second `-`. The functions here
give the length of the identifier at the head of a text: `length?` is that length, `split?` cuts
the text there.

Escapes overlap. At one place the fixed escape is tried first, then the hexadecimal one with as
many digits as possible, then the double one.
-/

namespace DomSelect.Ident

open CodeUnit

variable {α : Type} [CodeUnit α]

/-- Units that may begin a name: `_` and `a` to `z`. -/
def isNameStart (unit : α) : Bool := is '_' unit || between 'a' 'z' unit

/-- Units that may continue a name: those that begin one, `-` and digits. -/
def isNameUnit (unit : α) : Bool := isNameStart unit || is '-' unit || isDigit unit

/-- Units that may follow two backslashes: carriage return, line feed, form feed, digits and
`a` to `f`. -/
def isTerminator (unit : α) : Bool :=
  is '\r' unit || is '\n' unit || is '\x0c' unit || isDigit unit || between 'a' 'f' unit

/-! ## Escapes -/

/-- The text begins with a backslash, `2` or `3`, and two digits. -/
def startsFixedEscape : List α → Bool
  | slash :: page :: tens :: ones :: _ =>
    is '\\' slash && (is '2' page || is '3' page) && isDigit tens && isDigit ones
  | _ => false

/-- Number of hexadecimal digits, at most six, after a backslash at the head of the text. -/
def hexEscapeDigits : List α → Nat
  | slash :: rest => if is '\\' slash then ((rest.take 6).takeWhile isHexDigit).length else 0
  | [] => 0

/-- The text begins with two backslashes and a terminator. -/
def startsDoubleEscape : List α → Bool
  | slash :: second :: last :: _ => is '\\' slash && is '\\' second && isTerminator last
  | _ => false

/-- Length of the escape at the head of the text, 0 if there is none. -/
def escapeLength (text : List α) : Nat :=
  if startsFixedEscape text then 4
  else if 0 < hexEscapeDigits text then hexEscapeDigits text + 1
  else if startsDoubleEscape text then 3
  else 0

/-! ## Whole identifiers -/

/-- Length of the longest sequence of pieces at the head of the text, where the first `pending`
units are known to belong to an escape. -/
def tailLength : Nat → List α → Nat
  | _, [] => 0
  | pending + 1, _ :: rest => tailLength pending rest + 1
  | 0, unit :: rest =>
    if isNameUnit unit then tailLength 0 rest + 1
    else match escapeLength (unit :: rest) with
      | 0 => 0
      | pending + 1 => tailLength pending rest + 1

/-- Length of an identifier without a leading `-`. -/
def bodyLength? : List α → Option Nat
  | [] => none
  | unit :: rest =>
    if isNameStart unit then some (tailLength 0 rest + 1)
    else match escapeLength (unit :: rest) with
      | 0 => none
      | pending + 1 => some (tailLength pending rest + 1)

/-- Length of the identifier at the head of the text. -/
def length? : List α → Option Nat
  | [] => none
  | unit :: rest =>
    if is '-' unit then (bodyLength? rest).map (· + 1) else bodyLength? (unit :: rest)

/-- The identifier at the head of the text and what follows it. -/
def split? (text : List α) : Option (List α × List α) :=
  (length? text).map fun n => (text.take n, text.drop n)

/-- The identifier and what follows it make up the text. -/
theorem split?_append {text taken rest : List α} (h : split? text = some (taken, rest)) :
    taken ++ rest = text := by
  obtain ⟨n, _, he⟩ := Option.map_eq_some_iff.mp h
  obtain ⟨rfl, rfl⟩ := Prod.mk.inj he
  exact List.take_append_drop n text

end DomSelect.Ident
