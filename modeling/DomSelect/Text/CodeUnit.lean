/-!
# Code units

Identifiers are described by the codes of the units they are made of, so that one description
reads a list of characters and the bytes of its encoding alike.
-/

namespace DomSelect

/-- Units of text with a numeric code. -/
class CodeUnit (α : Type) where
  code : α → Nat

instance : CodeUnit Char := ⟨Char.toNat⟩

instance : CodeUnit UInt8 := ⟨UInt8.toNat⟩

namespace CodeUnit

variable {α : Type} [CodeUnit α]

/-- `unit` is the unit of the character `c`. -/
def is (c : Char) (unit : α) : Bool := code unit == c.toNat

/-- `unit` has a code from that of `lo` to that of `hi`. -/
def between (lo hi : Char) (unit : α) : Bool := lo.toNat ≤ code unit && code unit ≤ hi.toNat

/-- A digit `0` to `9`. -/
def isDigit (unit : α) : Bool := between '0' '9' unit

/-- A hexadecimal digit of either case. -/
def isHexDigit (unit : α) : Bool :=
  isDigit unit || between 'a' 'f' unit || between 'A' 'F' unit

end CodeUnit

end DomSelect
