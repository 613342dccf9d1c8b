/-!
# Byte widths of text

Positions in a selector count the bytes of its UTF-8 encoding. `utf8Width` is the number of bytes
of a list of characters; it is additive (`utf8Width_append`) and it agrees with the byte size of a
string (`utf8Width_toList`).
-/

namespace DomSelect

/-- Number of bytes of the UTF-8 encoding of `text`. -/
def utf8Width : List Char → Nat
  | [] => 0
  | c :: rest => c.utf8Size + utf8Width rest

@[simp] theorem utf8Width_nil : utf8Width [] = 0 := rfl

@[simp] theorem utf8Width_cons (c : Char) (rest : List Char) :
    utf8Width (c :: rest) = c.utf8Size + utf8Width rest := rfl

@[simp] theorem utf8Width_append (left right : List Char) :
    utf8Width (left ++ right) = utf8Width left + utf8Width right := by
  induction left with
  | nil => simp
  | cons c rest ih => simp [ih, Nat.add_assoc]

theorem length_le_utf8Width (text : List Char) : text.length ≤ utf8Width text := by
  induction text with
  | nil => simp
  | cons c rest ih =>
    have h := c.utf8Size_pos
    simp only [List.length_cons, utf8Width_cons]
    omega

theorem utf8Size_eq_one {c : Char} (h : c.toNat < 128) : c.utf8Size = 1 := by
  rw [Char.utf8Size_eq_one_iff, UInt32.le_iff_toNat_le]
  exact Nat.le_of_lt_succ h

theorem utf8Width_eq_length {text : List Char} (h : ∀ c ∈ text, c.toNat < 128) :
    utf8Width text = text.length := by
  induction text with
  | nil => rfl
  | cons c rest ih =>
    obtain ⟨hc, hrest⟩ := List.forall_mem_cons.mp h
    rw [utf8Width_cons, utf8Size_eq_one hc, ih hrest, List.length_cons, Nat.add_comm]

/-- The byte size of a string is the width of its characters. -/
theorem utf8Width_toList (s : String) : utf8Width s.toList = s.utf8ByteSize := by
  have h : ∀ text : List Char, (String.ofList text).utf8ByteSize = utf8Width text := by
    intro text
    induction text with
    | nil => rfl
    | cons c rest ih =>
      rw [String.ofList_cons, String.utf8ByteSize_append, String.utf8ByteSize_singleton, ih,
        utf8Width_cons]
  rw [← h, String.ofList_toList]

theorem length_le_utf8ByteSize (s : String) : s.length ≤ s.utf8ByteSize := by
  rw [← utf8Width_toList, ← String.length_toList]
  exact length_le_utf8Width s.toList

end DomSelect
