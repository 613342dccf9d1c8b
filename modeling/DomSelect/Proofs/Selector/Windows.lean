import DomSelect.Proofs.Selector.Offsets

/-!
# Windows of bytes

Reading an identifier by offsets looks at windows of bytes. One that is an escape ends where a
character begins; any other one may end inside a character. So a reader that asks every window where
it ends comes to the same as one that asks the accepted ones only, or it fails inside a character
(`Fault.Stricter`), step by step up to whole runs (`Cursor.run_stricter`). No window reaches beyond
the text.
-/

namespace DomSelect

/-- The first comes to the same as the second, or it fails inside a character. -/
def Fault.Stricter {α : Type} (strict lenient : Except Fault α) : Prop :=
  strict = lenient ∨ ∃ offset, strict = .error (.inside offset)

namespace Fault.Stricter

variable {α β : Type} {strict lenient : Except Fault α}

theorem refl (result : Except Fault α) : Stricter result result := .inl rfl

theorem bind {f g : α → Except Fault β} (h : Stricter strict lenient)
    (hfg : ∀ a, strict = .ok a → Stricter (f a) (g a)) :
    Stricter (strict >>= f) (lenient >>= g) := by
  obtain rfl | ⟨offset, rfl⟩ := h
  · cases strict with
    | error fault => exact .inl rfl
    | ok a => exact hfg a rfl
  · exact .inr ⟨offset, rfl⟩

/-- Steps that are the same are followed by steps one of which is stricter. -/
theorem bind_right {f g : α → Except Fault β} (result : Except Fault α)
    (hfg : ∀ a, Stricter (f a) (g a)) : Stricter (result >>= f) (result >>= g) :=
  (refl result).bind fun a _ => hfg a

end Fault.Stricter

namespace Offset

open Fault Ident

variable {text : String} {start : Nat}

theorem check_of_le {offset : Nat} (h : offset ≤ text.utf8ByteSize) :
    check text offset = .ok () ∨ check text offset = .error (.inside offset) := by
  rw [check, if_neg (Nat.not_lt.mpr h)]
  split
  · exact .inl rfl
  · exact .inr rfl

theorem length_bytesFrom {bytes : List UInt8} (h : bytesFrom text start = .ok bytes) :
    start + bytes.length = text.utf8ByteSize := by
  unfold bytesFrom check at h
  split_ifs at h with hbeyond hvalid
  · cases h
  · obtain rfl : text.toByteArray.data.toList.drop start = bytes := Except.ok.inj h
    rw [List.length_drop, Array.length_toList]
    exact Nat.add_sub_cancel' (Nat.not_lt.mp hbeyond)
  · cases h

theorem acceptsWindow_stricter (text : String) (start width : Nat) (accepts : List UInt8 → Bool) :
    Stricter (acceptsWindow .taken text start width accepts)
      (acceptsWindow .accepted text start width accepts) := by
  refine (Stricter.refl (bytesFrom text start)).bind fun bytes hbytes => ?_
  split
  · exact .refl _
  · next hshort =>
    -- a window that is taken ends in the text at least
    have hend : start + width ≤ text.utf8ByteSize := by
      rw [← length_bytesFrom hbytes]
      omega
    cases haccepts : accepts (bytes.take width) with
    | true => exact .refl _
    | false =>
      obtain hcheck | hcheck := check_of_le hend
      · rw [hcheck]
        exact .inl rfl
      · rw [hcheck]
        exact .inr ⟨_, rfl⟩

theorem fixedEscapeStop?_stricter (text : String) (offset : Nat) :
    Stricter (fixedEscapeStop? .taken text offset) (fixedEscapeStop? .accepted text offset) :=
  (acceptsWindow_stricter ..).bind fun _ _ => .refl _

theorem otherEscapeStop?_stricter (text : String) (offset : Nat) :
    Stricter (otherEscapeStop? .taken text offset) (otherEscapeStop? .accepted text offset) := by
  refine .bind_right _ fun bytes => ?_
  split
  · refine .bind_right _ fun behind => ?_
    dsimp only
    split
    · exact .refl _
    · exact (acceptsWindow_stricter ..).bind fun _ _ => .refl _
  · exact .refl _

theorem pieceStop?_stricter (plain : UInt8 → Bool) (text : String) (offset : Nat) :
    Stricter (pieceStop? .taken plain text offset) (pieceStop? .accepted plain text offset) := by
  refine .bind_right _ fun bytes => ?_
  dsimp only
  split
  · exact .refl _
  · refine (fixedEscapeStop?_stricter text offset).bind fun stop? _ => ?_
    cases stop? with
    | some stop => exact .refl _
    | none => exact otherEscapeStop?_stricter text offset

theorem piecesStop_stricter (text : String) (rounds offset : Nat) :
    Stricter (piecesStop .taken text rounds offset) (piecesStop .accepted text rounds offset) := by
  induction rounds generalizing offset with
  | zero => exact .refl _
  | succ rounds ih =>
    refine (pieceStop?_stricter isNameUnit text offset).bind fun stop? _ => ?_
    cases stop? with
    | some stop => exact ih stop
    | none => exact .refl _

theorem identStop?_stricter (text : String) (start : Nat) :
    Stricter (identStop? .taken text start) (identStop? .accepted text start) := by
  refine .bind_right _ fun bytes => ?_
  refine (pieceStop?_stricter isNameStart text _).bind fun stop? _ => ?_
  cases stop? with
  | some stop => exact (piecesStop_stricter text _ stop).bind fun _ _ => .refl _
  | none => exact .refl _

end Offset

namespace Cursor

open Fault Offset

variable (isAlphanumeric : Char → Bool) (text : String)

theorem takeIdent_stricter (offset : Nat) (kind : TokenKind) (expected : Expected)
    (next : Scanner.State) : Stricter (takeIdent .taken text offset kind expected next)
      (takeIdent .accepted text offset kind expected next) :=
  (identStop?_stricter text offset).bind fun _ _ => .refl _

/-- Only identifiers are read through windows. -/
theorem step_stricter (cursor : Cursor) : Stricter (step .taken isAlphanumeric text cursor)
    (step .accepted isAlphanumeric text cursor) := by
  obtain ⟨offset, state⟩ := cursor
  cases state with
  | idName => exact takeIdent_stricter ..
  | elementName => exact takeIdent_stricter ..
  | className => exact takeIdent_stricter ..
  | start => exact .refl _
  | idPrefix => exact .refl _
  | elementSuffix => exact .refl _
  | classPrefix => exact .refl _
  | done => exact .refl _

theorem run_stricter (count : Nat) (cursor : Cursor) :
    Stricter (run .taken isAlphanumeric text count cursor)
      (run .accepted isAlphanumeric text count cursor) := by
  induction count generalizing cursor with
  | zero => exact .refl _
  | succ count ih =>
    refine (step_stricter isAlphanumeric text cursor).bind fun (emitted, between) _ => ?_
    exact (ih between).bind fun _ _ => .refl _

end Cursor

end DomSelect
