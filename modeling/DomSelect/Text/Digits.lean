/-!
# Numbers written in digits

The number that digits of a base up to 16 stand for, whether letters among them are capital or not.
The hexadecimal digits of a number stand for it (`numberOf_toDigits`).
-/

namespace DomSelect

/-- The value of a digit, hexadecimal ones included. -/
def digitValue (c : Char) : Nat :=
  if c.isDigit then c.toNat - '0'.toNat
  else if c.isUpper then c.toNat - 'A'.toNat + 10
  else c.toNat - 'a'.toNat + 10

/-- The number that digits stand for. -/
def numberOf (base : Nat) (digits : List Char) : Nat :=
  digits.foldl (fun n c => base * n + digitValue c) 0

theorem digitValue_digitChar {digit : Nat} (h : digit < 16) :
    digitValue (Nat.digitChar digit) = digit := by
  revert digit
  decide

theorem numberOf_concat (base : Nat) (digits : List Char) (c : Char) :
    numberOf base (digits ++ [c]) = base * numberOf base digits + digitValue c :=
  List.foldl_append

theorem numberOf_toDigits (n : Nat) : numberOf 16 (Nat.toDigits 16 n) = n := by
  induction n using Nat.strongRecOn with
  | ind n ih =>
    rw [Nat.toDigits_eq_if (by decide)]
    split
    · next h =>
      rw [← List.nil_append [_], numberOf_concat, digitValue_digitChar h]
      exact Nat.zero_add n
    · next h =>
      have hlt : n / 16 < n := Nat.div_lt_self (by omega) (by decide)
      have hd : n % 16 < 16 := Nat.mod_lt n (by decide)
      rw [numberOf_concat, ih _ hlt, digitValue_digitChar hd, Nat.div_add_mod]

end DomSelect
