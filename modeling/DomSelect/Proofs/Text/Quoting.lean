import DomSelect.Text.Digits
import DomSelect.Text.Quoted
import Mathlib.Tactic.SplitIfs

/-!
# Quotations are read back

Whichever characters are named by code point, a quotation tells what was quoted and where it ends:
`readChar?` reads the character at the front of a quotation, in any of its written forms, and finds
none at the closing quote (`readChar?_encodeChar`). So texts with quotations that begin with the same
characters are the same text (`encode_append_inj`).
-/

namespace DomSelect.Quoted

variable {byNumber : Char → Bool} {text other rest after : List Char} {c : Char} {digit n : Nat}

/-! ## Hexadecimal numbers -/

theorem digitChar_ne_brace (h : digit < 16) : Nat.digitChar digit ≠ '\x7d' := by
  revert digit
  decide

theorem brace_notMem_toDigits (n : Nat) : '\x7d' ∉ Nat.toDigits 16 n := by
  induction n using Nat.strongRecOn with
  | ind n ih =>
    rw [Nat.toDigits_eq_if (by decide)]
    split
    · next h => simp [(digitChar_ne_brace h).symm]
    · next h =>
      have hlt : n / 16 < n := Nat.div_lt_self (by omega) (by decide)
      have hd : n % 16 < 16 := Nat.mod_lt n (by decide)
      rw [List.mem_append, List.mem_singleton, not_or]
      exact ⟨ih _ hlt, (digitChar_ne_brace hd).symm⟩

/-! ## Reading a quotation -/

/-- The character at the front of a quotation and what follows it; `none` at the closing quote and
where no character is written. -/
def readChar? : List Char → Option (Char × List Char)
  | '\\' :: 'u' :: '\x7b' :: rest =>
    some (Char.ofNat (numberOf 16 (rest.takeWhile (· ≠ '\x7d'))),
      (rest.dropWhile (· ≠ '\x7d')).drop 1)
  | '\\' :: 't' :: rest => some ('\t', rest)
  | '\\' :: 'n' :: rest => some ('\n', rest)
  | '\\' :: 'r' :: rest => some ('\r', rest)
  | '\\' :: '0' :: rest => some ('\x00', rest)
  | '\\' :: c :: rest => some (c, rest)
  | '"' :: _ => none
  | c :: rest => some (c, rest)
  | [] => none

theorem readChar?_byCode (c : Char) (rest : List Char) :
    readChar? (byCode c ++ rest) = some (c, rest) := by
  have hout : ∀ d ∈ hexDigits c, decide (d ≠ '\x7d') = true := by
    intro d hd
    refine decide_eq_true fun he => brace_notMem_toDigits c.toNat ?_
    rw [← he]
    exact hd
  have hread : readChar? (byCode c ++ rest) =
      some (Char.ofNat (numberOf 16 ((hexDigits c ++ '\x7d' :: rest).takeWhile (· ≠ '\x7d'))),
        ((hexDigits c ++ '\x7d' :: rest).dropWhile (· ≠ '\x7d')).drop 1) := by
    simp [byCode, readChar?]
  rw [hread, List.takeWhile_append_of_pos hout, List.dropWhile_append_of_pos hout]
  simp [hexDigits, numberOf_toDigits, Char.ofNat_toNat]

/-- Each written form is read back as its character. -/
theorem readChar?_encodeChar (byNumber : Char → Bool) (c : Char) (rest : List Char) :
    readChar? (encodeChar byNumber c ++ rest) = some (c, rest) := by
  unfold encodeChar
  split_ifs with hquote hslash htab hline hreturn hnull hcode
  · subst hquote; rfl
  · subst hslash; rfl
  · subst htab; rfl
  · subst hline; rfl
  · subst hreturn; rfl
  · subst hnull; rfl
  · exact readChar?_byCode c rest
  · simp [readChar?, hslash]

/-- A quotation shows where it ends, and what it quotes. -/
theorem encode_append_inj
    (h : encode byNumber text ++ '"' :: rest = encode byNumber other ++ '"' :: after) :
    text = other ∧ rest = after := by
  induction text generalizing other with
  | nil =>
    cases other with
    | nil => exact ⟨rfl, (List.cons.inj h).2⟩
    | cons d others =>
      have hread := congrArg readChar? h
      rw [encode, encode, List.flatMap_cons, List.append_assoc, readChar?_encodeChar] at hread
      cases hread
  | cons c text ih =>
    have hread := congrArg readChar? h
    rw [encode, List.flatMap_cons, List.append_assoc, readChar?_encodeChar] at hread
    cases other with
    | nil => cases hread
    | cons d others =>
      rw [encode, List.flatMap_cons, List.append_assoc, readChar?_encodeChar] at hread
      obtain ⟨rfl, hrest⟩ := Prod.mk.inj (Option.some.inj hread)
      obtain ⟨rfl, hafter⟩ := ih hrest
      exact ⟨rfl, hafter⟩

end DomSelect.Quoted
