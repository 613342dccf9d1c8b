import DomSelect.Proofs.Selector.LongestMatch
import DomSelect.Proofs.Selector.Tiling
import Mathlib.Data.String.Basic

/-!
# Scanning by byte offsets

A `Cursor` scans a text of which it knows an offset only. Whatever it reads it asks the text for, by
offsets in bytes: a character, a part of the text, the bytes from an offset on, or a window of so
many of them. Such an access fails at an offset beyond the text or inside a character, and a loop
fails that goes on for too long (`Fault`).

Windows are looked at before it is known what is in them. One that is no escape may end inside a
character, so `Windows` says which of them are asked where they end: all that are taken, or those
only that are accepted as an escape.

`Stands` says which characters come at an offset. Where some stand, every access succeeds and gives
the front of them. Bytes that occur in identifiers are characters (`exists_take_of_isPart`), so the
offset behind a run of them may be used again, an accepted window ends there, and reading piece by
piece comes to the length that the scanner finds in its characters (`Stands.identStop?_eq`). From
there a step of the cursor is a step of the scanner (`Cursor.step_eq`).
-/

namespace DomSelect

/-- What goes wrong when a text is read by offsets. -/
inductive Fault where
  | beyond (offset : Nat)
  /-- The offset is inside a character. -/
  | inside (offset : Nat)
  | reversed (start stop : Nat)
  /-- A loop is not over after one round more than the text has bytes. -/
  | endless
  deriving DecidableEq, Repr

@[simp] theorem Fault.ok_bind {α β : Type} (a : α) (f : α → Except Fault β) :
    (Except.ok a >>= f) = f a := rfl

/-- The windows that must not end inside a character. -/
inductive Windows where
  | taken
  | accepted
  deriving DecidableEq, Repr

namespace Offset

open CodeUnit Ident

/-! ## Accesses -/

/-- An offset may be used if a character begins there or the text ends there. -/
def check (text : String) (offset : Nat) : Except Fault Unit :=
  if text.utf8ByteSize < offset then .error (.beyond offset)
  else if String.Pos.Raw.IsValid text ⟨offset⟩ then .ok ()
  else .error (.inside offset)

/-- The character at an offset, `none` at the end of the text. -/
def char? (text : String) (offset : Nat) : Except Fault (Option Char) := do
  check text offset
  return String.Pos.Raw.get? text ⟨offset⟩

/-- The part of a text from one offset up to another. -/
def part (text : String) (start stop : Nat) : Except Fault String := do
  check text start
  check text stop
  if stop < start then .error (.reversed start stop)
  else return String.Pos.Raw.extract text ⟨start⟩ ⟨stop⟩

/-- The bytes of a text from an offset on. -/
def bytesFrom (text : String) (offset : Nat) : Except Fault (List UInt8) := do
  check text offset
  return text.toByteArray.data.toList.drop offset

/-- Whether a window of so many bytes from an offset on is accepted. None is taken where the text
has fewer. -/
def acceptsWindow (windows : Windows) (text : String) (start width : Nat)
    (accepts : List UInt8 → Bool) : Except Fault Bool := do
  let bytes ← bytesFrom text start
  if bytes.length < width then return false
  else if windows = .taken || accepts (bytes.take width) then
    check text (start + width)
    return accepts (bytes.take width)
  else return false

/-! ## Identifiers -/

/-- A second backslash and a terminator. -/
def isEscapedTerminator : List UInt8 → Bool
  | [second, last] => is '\\' second && isTerminator last
  | _ => false

section

variable (windows : Windows)

/-- Where the fixed escape at an offset stops. -/
def fixedEscapeStop? (text : String) (offset : Nat) : Except Fault (Option Nat) := do
  return if ← acceptsWindow windows text offset 4 startsFixedEscape then some (offset + 4) else none

/-- Where another escape at an offset stops. The backslash is read first, and then what is behind
it. -/
def otherEscapeStop? (text : String) (offset : Nat) : Except Fault (Option Nat) := do
  if (← bytesFrom text offset).head?.any (is '\\') then
    let digits := ((← bytesFrom text (offset + 1)).take 6).takeWhile isHexDigit
    if 0 < digits.length then return some (offset + 1 + digits.length)
    else return if ← acceptsWindow windows text (offset + 1) 2 isEscapedTerminator then
      some (offset + 3) else none
  else return none

/-- Where a run of plain bytes stops, or else one escape. -/
def pieceStop? (plain : UInt8 → Bool) (text : String) (offset : Nat) :
    Except Fault (Option Nat) := do
  let run := (← bytesFrom text offset).takeWhile plain
  if 0 < run.length then return some (offset + run.length)
  else match ← fixedEscapeStop? windows text offset with
    | some stop => return some stop
    | none => otherEscapeStop? windows text offset

/-- Where the last one of several pieces stops. -/
def piecesStop (text : String) : Nat → Nat → Except Fault Nat
  | 0, _ => .error .endless
  | rounds + 1, offset => do
    match ← pieceStop? windows isNameUnit text offset with
    | some stop => piecesStop text rounds stop
    | none => return offset

/-- Where an identifier without a leading `-` stops. -/
def bodyStop? (text : String) (start : Nat) : Except Fault (Option Nat) := do
  match ← pieceStop? windows isNameStart text start with
  | some stop => return some (← piecesStop windows text (text.utf8ByteSize + 1) stop)
  | none => return none

/-- Where the identifier at an offset stops. -/
def identStop? (text : String) (start : Nat) : Except Fault (Option Nat) := do
  bodyStop? windows text (if (← bytesFrom text start).head?.any (is '-') then start + 1 else start)

end

end Offset

/-! ## Steps -/

/-- A scanner that knows by an offset only what it has still to read. -/
structure Cursor where
  offset : Nat
  state : Scanner.State
  deriving DecidableEq, Repr

namespace Cursor

open Offset

/-- The offset behind the blanks. -/
def skipBlanks (text : String) : Nat → Nat → Except Fault Nat
  | 0, _ => .error .endless
  | rounds + 1, offset => do
    if (← char? text offset).any Scanner.isBlank then skipBlanks text rounds (offset + 1)
    else return offset

/-- Stop with an error at this offset. -/
def fail (offset : Nat) (expected : Expected) : Option Token × Cursor :=
  (some ⟨.error, expected.text, offset⟩, ⟨offset, .done⟩)

/-- Read a mark of one byte as a token. -/
def takeMark (text : String) (offset : Nat) (kind : TokenKind) (next : Scanner.State) :
    Except Fault (Option Token × Cursor) := do
  return (some ⟨kind, ← part text offset (offset + 1), offset⟩, ⟨offset + 1, next⟩)

section

variable (windows : Windows) (isAlphanumeric : Char → Bool)

/-- Read an identifier as a token. -/
def takeIdent (text : String) (offset : Nat) (kind : TokenKind) (expected : Expected)
    (next : Scanner.State) : Except Fault (Option Token × Cursor) := do
  match ← identStop? windows text offset with
  | some stop => return (some ⟨kind, ← part text offset stop, offset⟩, ⟨stop, next⟩)
  | none => return fail offset expected

/-- Begin a term at an offset at which there is no blank. -/
def beginTerm (text : String) (offset : Nat) : Except Fault (Option Token × Cursor) := do
  match ← char? text offset with
  | none => return (some ⟨.endOfInput, "", offset⟩, ⟨offset, .done⟩)
  | some c =>
    if c = '#' then return (none, ⟨offset, .idPrefix⟩)
    else if c = '.' then return (some ⟨.wildcardShorthand, "", offset⟩, ⟨offset, .classPrefix⟩)
    else if c = '*' then return (some ⟨.wildcard, "*", offset⟩, ⟨offset + 1, .elementSuffix⟩)
    else if c = '-' || isAlphanumeric c then return (none, ⟨offset, .elementName⟩)
    else return fail offset .elementSpecification

/-- Run the present state once. -/
def step (text : String) (cursor : Cursor) : Except Fault (Option Token × Cursor) := do
  match cursor.state with
  | .start =>
    beginTerm isAlphanumeric text (← skipBlanks text (text.utf8ByteSize + 1) cursor.offset)
  | .idPrefix => takeMark text cursor.offset .idPrefix .idName
  | .idName => takeIdent windows text cursor.offset .id .id .start
  | .elementName => takeIdent windows text cursor.offset .elementName .elementName .elementSuffix
  | .elementSuffix =>
    let dotted := (← char? text cursor.offset) = some '.'
    return (none, ⟨cursor.offset, if dotted then .classPrefix else .start⟩)
  | .classPrefix => takeMark text cursor.offset .classPrefix .className
  | .className => takeIdent windows text cursor.offset .className .className .start
  | .done => return (none, cursor)

/-- Run the present state a number of times: the tokens emitted, and the cursor after it. -/
def run (text : String) : Nat → Cursor → Except Fault (List Token × Cursor)
  | 0, cursor => return ([], cursor)
  | count + 1, cursor => do
    let (emitted, between) ← step windows isAlphanumeric text cursor
    let (others, after) ← run text count between
    return (emitted.toList ++ others, after)

end

end Cursor

/-! ## Bytes of characters -/

/-- The bytes of some characters. -/
def utf8Bytes (text : List Char) : List UInt8 := text.flatMap String.utf8EncodeChar

theorem utf8Bytes_cons (c : Char) (rest : List Char) :
    utf8Bytes (c :: rest) = String.utf8EncodeChar c ++ utf8Bytes rest := List.flatMap_cons

theorem utf8Bytes_append (left right : List Char) :
    utf8Bytes (left ++ right) = utf8Bytes left ++ utf8Bytes right := List.flatMap_append

theorem length_utf8Bytes (text : List Char) : (utf8Bytes text).length = utf8Width text := by
  induction text with
  | nil => rfl
  | cons c rest ih =>
    rw [utf8Bytes_cons, List.length_append, String.length_utf8EncodeChar, ih, utf8Width_cons]

theorem toList_toByteArray (text : String) :
    text.toByteArray.data.toList = utf8Bytes text.toList := by
  conv_lhs => rw [← text.ofList_toList]
  rw [String.toByteArray_ofList, List.utf8Encode, List.data_toByteArray]
  rfl

theorem utf8Len_eq (text : List Char) : String.utf8Len text = utf8Width text := by
  induction text with
  | nil => rfl
  | cons c rest ih => rw [String.utf8Len_cons, utf8Width_cons, ih, Nat.add_comm]

/-- No character of several bytes begins with a byte that occurs in identifiers. -/
theorem lt_of_isPart_utf8 {c : Char}
    (h : ∀ byte, (String.utf8EncodeChar c).head? = some byte → Ident.isPart byte = true) :
    c.toNat < 128 := by
  refine Nat.lt_of_not_le fun hwide => ?_
  cases hhead : (String.utf8EncodeChar c).head? with
  | none => exact String.utf8EncodeChar_ne_nil (List.head?_eq_none_iff.mp hhead)
  | some byte =>
    have hpart := h byte hhead
    rw [Ident.isPart_of_le (Ident.le_code_of_utf8 hwide hhead)] at hpart
    cases hpart

/-- Bytes that occur in identifiers are characters by themselves. -/
theorem exists_take_of_isPart {n : Nat} {text : List Char} (hn : n ≤ (utf8Bytes text).length)
    (hpart : ∀ byte ∈ (utf8Bytes text).take n, Ident.isPart byte = true) :
    ∃ taken rest, text = taken ++ rest ∧ utf8Width taken = n ∧
      utf8Bytes rest = (utf8Bytes text).drop n := by
  induction n generalizing text with
  | zero => exact ⟨[], text, rfl, rfl, rfl⟩
  | succ n ih =>
    cases text with
    | nil => exact absurd hn (Nat.not_succ_le_zero n)
    | cons c text =>
      have hascii : c.toNat < 128 := by
        refine lt_of_isPart_utf8 fun byte hbyte => hpart byte ?_
        obtain ⟨others, hbytes⟩ := List.head?_eq_some_iff.mp hbyte
        simp [utf8Bytes_cons, hbytes]
      have hsize := utf8Size_eq_one hascii
      have hbytes : utf8Bytes (c :: text) = c.val.toUInt8 :: utf8Bytes text := by
        rw [utf8Bytes_cons, String.utf8EncodeChar_eq_singleton hsize]
        rfl
      rw [hbytes] at hn hpart ⊢
      obtain ⟨taken, rest, rfl, hwidth, hrest⟩ := ih (Nat.le_of_succ_le_succ hn)
        fun byte hbyte => hpart byte (List.mem_cons_of_mem _ hbyte)
      refine ⟨c :: taken, rest, rfl, ?_, hrest⟩
      rw [utf8Width_cons, hsize, hwidth, Nat.add_comm]

/-! ## Pieces -/

namespace Ident

open CodeUnit

variable {α : Type} [CodeUnit α] {first text : List α} {unit : α} {plain : α → Bool}

/-- Length of a run of plain units, or else of one escape. -/
def pieceLength (plain : α → Bool) (text : List α) : Nat :=
  if 0 < (text.takeWhile plain).length then (text.takeWhile plain).length else escapeLength text

theorem pieceLength_cons_of_pos (h : plain unit = true) (rest : List α) :
    pieceLength plain (unit :: rest) = (rest.takeWhile plain).length + 1 := by
  rw [pieceLength, List.takeWhile_cons_of_pos h, List.length_cons, if_pos (Nat.succ_pos _)]

theorem pieceLength_cons_of_neg (h : ¬ plain unit = true) (rest : List α) :
    pieceLength plain (unit :: rest) = escapeLength (unit :: rest) := by
  rw [pieceLength, List.takeWhile_cons_of_neg h, List.length_nil, if_neg (Nat.lt_irrefl 0)]

/-- A piece lies in the text, and is made of units that occur in identifiers. -/
theorem pieceLength_le (hplain : ∀ unit, plain unit = true → isNameUnit unit = true)
    (text : List α) : pieceLength plain text ≤ text.length ∧
      ∀ unit ∈ text.take (pieceLength plain text), isPart unit = true := by
  unfold pieceLength
  split
  · have hrun := List.takeWhile_prefix (l := text) plain
    refine ⟨hrun.length_le, fun unit hunit => ?_⟩
    rw [← List.prefix_iff_eq_take.mp hrun] at hunit
    exact isPart_of_isNameUnit (hplain unit (List.mem_takeWhile_imp hunit))
  · cases h : escapeLength text with
    | zero => exact ⟨Nat.zero_le _, by simp⟩
    | succ n => exact ⟨(escape_take h).1, (escape_take h).2.isPart_of_mem⟩

theorem tailLength_units (h : ∀ unit ∈ first, isNameUnit unit = true) (rest : List α) :
    tailLength 0 (first ++ rest) = first.length + tailLength 0 rest := by
  induction first with
  | nil => rw [List.nil_append, List.length_nil, Nat.zero_add]
  | cons unit first ih =>
    obtain ⟨hunit, hfirst⟩ := List.forall_mem_cons.mp h
    rw [List.cons_append, tailLength_unit hunit, ih hfirst, List.length_cons, Nat.add_right_comm]

/-- Behind a piece, reading goes on as at any place. -/
theorem pieceLength_add (hplain : ∀ unit, plain unit = true → isNameUnit unit = true)
    (hne : pieceLength plain text ≠ 0) :
    tailLength 0 text =
      pieceLength plain text + tailLength 0 (text.drop (pieceLength plain text)) := by
  unfold pieceLength at hne ⊢
  split
  · obtain ⟨rest, hsplit⟩ := List.takeWhile_prefix (l := text) plain
    have hunits : ∀ unit ∈ text.takeWhile plain, isNameUnit unit = true :=
      fun unit hunit => hplain unit (List.mem_takeWhile_imp hunit)
    generalize text.takeWhile plain = run at hsplit hunits
    rw [← hsplit, List.drop_left, tailLength_units hunits]
  · next hrun =>
    rw [if_neg hrun] at hne
    obtain ⟨n, hn⟩ := Nat.exists_eq_succ_of_ne_zero hne
    obtain ⟨slash, rest, rfl, hslash, hle⟩ := exists_slash hn
    rw [hn, tailLength_escape (isNameUnit_of_slash hslash) hn, tailLength_pending hle,
      List.drop_succ_cons]
    omega

theorem tailLength_eq_zero (h : pieceLength isNameUnit text = 0) : tailLength 0 text = 0 := by
  cases text with
  | nil => rfl
  | cons unit rest =>
    by_cases hu : isNameUnit unit = true
    · rw [pieceLength_cons_of_pos hu] at h
      cases h
    · rw [pieceLength_cons_of_neg hu] at h
      rw [tailLength, if_neg hu, h]

/-- An identifier without a leading `-` is a piece and all the pieces behind it. -/
theorem bodyLength?_eq (text : List α) : bodyLength? text =
    if pieceLength isNameStart text = 0 then none else some (tailLength 0 text) := by
  cases text with
  | nil => rfl
  | cons unit rest =>
    by_cases hs : isNameStart unit = true
    · rw [bodyLength?, if_pos hs, pieceLength_cons_of_pos hs, if_neg (Nat.succ_ne_zero _),
        tailLength_unit (isNameUnit_of_isNameStart hs)]
    · rw [bodyLength?, if_neg hs, pieceLength_cons_of_neg hs]
      cases he : escapeLength (unit :: rest) with
      | zero => rfl
      | succ n =>
        obtain ⟨slash, others, hcons, hslash, -⟩ := exists_slash he
        obtain ⟨rfl, -⟩ := List.cons.inj hcons
        rw [if_neg (Nat.succ_ne_zero n), tailLength_escape (isNameUnit_of_slash hslash) he]

end Ident

/-! ## What stands at an offset -/

/-- From the offset on, the text goes on with these characters. -/
def Stands (text : String) (offset : Nat) (rest : List Char) : Prop :=
  ∃ read, text.toList = read ++ rest ∧ utf8Width read = offset

namespace Stands

open CodeUnit Ident Offset Fault

variable {text : String} {offset n rounds width : Nat} {c : Char} {rest taken : List Char}
  {plain : UInt8 → Bool} {accepts : List UInt8 → Bool}

theorem isValid (h : Stands text offset rest) : String.Pos.Raw.IsValid text ⟨offset⟩ := by
  obtain ⟨read, hsplit, rfl⟩ := h
  exact isValid_width hsplit

theorem le_size (h : Stands text offset rest) : offset ≤ text.utf8ByteSize :=
  h.isValid.le_rawEndPos

theorem utf8ByteSize_eq (h : Stands text offset rest) :
    text.utf8ByteSize = offset + utf8Width rest := by
  obtain ⟨read, hsplit, rfl⟩ := h
  rw [← utf8Width_toList, hsplit, utf8Width_append]

/-- Behind some of the characters, the others stand. -/
theorem advance (h : Stands text offset (taken ++ rest)) :
    Stands text (offset + utf8Width taken) rest := by
  obtain ⟨read, hsplit, rfl⟩ := h
  exact ⟨read ++ taken, by rw [hsplit, List.append_assoc], utf8Width_append ..⟩

theorem tail (h : Stands text offset (c :: rest)) : Stands text (offset + c.utf8Size) rest := by
  have hcons : Stands text offset ([c] ++ rest) := h
  exact hcons.advance

/-! ### Accesses -/

theorem check_eq (h : Stands text offset rest) : check text offset = .ok () := by
  rw [check, if_neg (Nat.not_lt.mpr h.le_size), if_pos h.isValid]

theorem char?_eq (h : Stands text offset rest) : char? text offset = .ok rest.head? := by
  rw [char?, h.check_eq]
  obtain ⟨read, hsplit, rfl⟩ := h
  rw [← text.ofList_toList, hsplit, ← utf8Len_eq, String.get?_of_valid]
  rfl

theorem part_eq (h : Stands text offset (taken ++ rest)) :
    part text offset (offset + utf8Width taken) = .ok (String.ofList taken) := by
  rw [part, h.check_eq, h.advance.check_eq]
  obtain ⟨read, hsplit, rfl⟩ := h
  rw [← List.append_assoc] at hsplit
  rw [← text.ofList_toList, hsplit, ← utf8Len_eq read, ← utf8Len_eq taken,
    String.extract_of_valid]
  exact if_neg (Nat.not_lt.mpr (Nat.le_add_right ..))

theorem bytesFrom_eq (h : Stands text offset rest) :
    bytesFrom text offset = .ok (utf8Bytes rest) := by
  rw [bytesFrom, h.check_eq, toList_toByteArray]
  obtain ⟨read, hsplit, rfl⟩ := h
  rw [hsplit, utf8Bytes_append, ← length_utf8Bytes read, List.drop_left]
  rfl

/-- Bytes that occur in identifiers lead to another character. -/
theorem advance_bytes (h : Stands text offset rest) (hn : n ≤ (utf8Bytes rest).length)
    (hpart : ∀ byte ∈ (utf8Bytes rest).take n, isPart byte = true) :
    ∃ left, Stands text (offset + n) left ∧ utf8Bytes left = (utf8Bytes rest).drop n := by
  obtain ⟨taken, left, rfl, rfl, hleft⟩ := exists_take_of_isPart hn hpart
  exact ⟨left, h.advance, hleft⟩

theorem advance_byte {byte : UInt8} {behind : List UInt8} (h : Stands text offset rest)
    (hbytes : utf8Bytes rest = byte :: behind) (hpart : isPart byte = true) :
    ∃ left, Stands text (offset + 1) left ∧ utf8Bytes left = behind := by
  have hone : ∀ unit ∈ (utf8Bytes rest).take 1, isPart unit = true := by
    rw [hbytes]
    exact List.forall_mem_singleton.mpr hpart
  obtain ⟨left, hleft, hbehind⟩ := h.advance_bytes (by simp [hbytes]) hone
  rw [hbytes, List.drop_succ_cons, List.drop_zero] at hbehind
  exact ⟨left, hleft, hbehind⟩

/-- A window that is accepted ends where a character begins, so it may be asked. -/
theorem acceptsWindow_eq (h : Stands text offset rest)
    (hpart : accepts ((utf8Bytes rest).take width) = true →
      ∀ byte ∈ (utf8Bytes rest).take width, isPart byte = true) :
    acceptsWindow .accepted text offset width accepts =
      .ok (decide (width ≤ (utf8Bytes rest).length) &&
        accepts ((utf8Bytes rest).take width)) := by
  rw [acceptsWindow, h.bytesFrom_eq, ok_bind]
  by_cases hshort : (utf8Bytes rest).length < width
  · rw [if_pos hshort, decide_eq_false (Nat.not_le.mpr hshort)]
    rfl
  · rw [if_neg hshort, decide_eq_true (Nat.not_lt.mp hshort), Bool.true_and]
    cases haccepts : accepts ((utf8Bytes rest).take width) with
    | false => rfl
    | true =>
      obtain ⟨left, hleft, -⟩ := h.advance_bytes (Nat.not_lt.mp hshort) (hpart haccepts)
      rw [hleft.check_eq]
      rfl

/-! ### Identifiers -/

/-- The offset behind a piece of this length, `none` if there is none. -/
def stopAfter (offset length : Nat) : Option Nat :=
  if length = 0 then none else some (offset + length)

theorem startsFixedEscape_take (bytes : List UInt8) :
    startsFixedEscape (bytes.take 4) = startsFixedEscape bytes := by
  rcases bytes with _ | ⟨slash, _ | ⟨page, _ | ⟨tens, _ | ⟨ones, rest⟩⟩⟩⟩ <;> rfl

theorem fixedEscapeStop?_eq (h : Stands text offset rest) :
    fixedEscapeStop? .accepted text offset =
      .ok (if startsFixedEscape (utf8Bytes rest) then some (offset + 4) else none) := by
  have hwindow : startsFixedEscape ((utf8Bytes rest).take 4) = true →
      ∀ byte ∈ (utf8Bytes rest).take 4, isPart byte = true := fun hf =>
    (take_of_startsFixedEscape (startsFixedEscape_take _ ▸ hf)).1.isPart_of_mem
  rw [fixedEscapeStop?, h.acceptsWindow_eq hwindow, ok_bind, startsFixedEscape_take]
  by_cases hf : startsFixedEscape (utf8Bytes rest) = true
  · rw [hf, decide_eq_true (take_of_startsFixedEscape hf).2.1]
    rfl
  · rw [Bool.eq_false_iff.mpr hf, Bool.and_false]
    rfl

theorem isPart_of_isEscapedTerminator {bytes : List UInt8} (h : isEscapedTerminator bytes = true) :
    ∀ byte ∈ bytes, isPart byte = true := by
  unfold isEscapedTerminator at h
  split at h
  · next second last =>
    obtain ⟨hsecond, hlast⟩ := Bool.and_eq_true_iff.mp h
    exact List.forall_mem_cons.mpr ⟨isPart_of_slash hsecond,
      List.forall_mem_singleton.mpr (isPart_of_isTerminator hlast)⟩
  · cases h

/-- Behind a backslash, the window of two bytes tells whether this is the double escape. -/
theorem isEscapedTerminator_take {slash : UInt8} (hs : is '\\' slash = true) (behind : List UInt8) :
    (decide (2 ≤ behind.length) && isEscapedTerminator (behind.take 2)) =
      startsDoubleEscape (slash :: behind) := by
  rcases behind with _ | ⟨second, _ | ⟨last, others⟩⟩
  · rfl
  · rfl
  · have hlength : 2 ≤ (second :: last :: others).length := Nat.le_add_left 2 others.length
    rw [startsDoubleEscape, hs, decide_eq_true hlength]
    rfl

theorem otherEscapeStop?_eq (h : Stands text offset rest)
    (hf : ¬ startsFixedEscape (utf8Bytes rest) = true) :
    otherEscapeStop? .accepted text offset =
      .ok (stopAfter offset (escapeLength (utf8Bytes rest))) := by
  rw [otherEscapeStop?, h.bytesFrom_eq, ok_bind]
  cases hbytes : utf8Bytes rest with
  | nil => rfl
  | cons slash behind =>
    rw [List.head?_cons, Option.any_some]
    by_cases hs : is '\\' slash = true
    · -- the backslash is a character, so the bytes behind it may be read
      obtain ⟨left, hleft, hbehind⟩ := h.advance_byte hbytes (isPart_of_slash hs)
      rw [hbytes] at hf
      rw [if_pos hs, hleft.bytesFrom_eq, ok_bind,
        hleft.acceptsWindow_eq isPart_of_isEscapedTerminator, hbehind, isEscapedTerminator_take hs,
        escapeLength, if_neg hf, hexEscapeDigits_cons hs]
      dsimp only
      split
      · rw [stopAfter, if_neg (Nat.succ_ne_zero _), Nat.add_assoc, Nat.add_comm 1]
        rfl
      · rw [ok_bind]
        split <;> rfl
    · rw [if_neg hs, escapeLength_of_not_slash (Bool.eq_false_iff.mpr hs)]
      rfl

theorem pieceStop?_eq (h : Stands text offset rest) (plain : UInt8 → Bool) :
    pieceStop? .accepted plain text offset =
      .ok (stopAfter offset (pieceLength plain (utf8Bytes rest))) := by
  rw [pieceStop?, h.bytesFrom_eq, ok_bind, pieceLength]
  dsimp only
  split
  · next hrun =>
    rw [stopAfter, if_neg (Nat.ne_of_gt hrun)]
    rfl
  · rw [h.fixedEscapeStop?_eq, ok_bind]
    by_cases hf : startsFixedEscape (utf8Bytes rest) = true
    · rw [if_pos hf, escapeLength, if_pos hf]
      rfl
    · rw [if_neg hf]
      exact h.otherEscapeStop?_eq hf

/-- Behind a piece there is another place to read from. -/
theorem advance_piece (h : Stands text offset rest)
    (hplain : ∀ unit, plain unit = true → isNameUnit unit = true) :
    ∃ left, Stands text (offset + pieceLength plain (utf8Bytes rest)) left ∧
      utf8Bytes left = (utf8Bytes rest).drop (pieceLength plain (utf8Bytes rest)) := by
  obtain ⟨hle, hpart⟩ := pieceLength_le hplain (utf8Bytes rest)
  exact h.advance_bytes hle hpart

theorem piecesStop_eq (h : Stands text offset rest) (hrounds : (utf8Bytes rest).length < rounds) :
    piecesStop .accepted text rounds offset = .ok (offset + tailLength 0 (utf8Bytes rest)) := by
  -- each round but the last one takes a byte at least
  induction rounds generalizing offset rest with
  | zero => exact absurd hrounds (Nat.not_lt_zero _)
  | succ rounds ih =>
    rw [piecesStop, h.pieceStop?_eq, ok_bind, stopAfter]
    by_cases hzero : pieceLength isNameUnit (utf8Bytes rest) = 0
    · rw [if_pos hzero, tailLength_eq_zero hzero]
      rfl
    · have hle := (pieceLength_le (fun _ hunit => hunit) (utf8Bytes rest)).1
      obtain ⟨left, hleft, hbytes⟩ := h.advance_piece fun _ hunit => hunit
      rw [if_neg hzero, pieceLength_add (fun _ hunit => hunit) hzero, ← Nat.add_assoc, ← hbytes]
      refine ih hleft ?_
      rw [hbytes, List.length_drop]
      omega

theorem bodyStop?_eq (h : Stands text offset rest) :
    bodyStop? .accepted text offset = .ok ((bodyLength? (utf8Bytes rest)).map (offset + ·)) := by
  rw [bodyStop?, h.pieceStop?_eq, ok_bind, stopAfter, bodyLength?_eq]
  by_cases hzero : pieceLength isNameStart (utf8Bytes rest) = 0
  · rw [if_pos hzero, if_pos hzero]
    rfl
  · obtain ⟨left, hleft, hbytes⟩ := h.advance_piece fun _ => isNameUnit_of_isNameStart
    have hsize := hleft.utf8ByteSize_eq
    rw [← length_utf8Bytes] at hsize
    rw [if_neg hzero, if_neg hzero]
    dsimp only
    rw [hleft.piecesStop_eq (by omega), ok_bind, hbytes, Nat.add_assoc,
      ← pieceLength_add (fun _ => isNameUnit_of_isNameStart) hzero]
    rfl

/-- **The identifier that is read by offsets is the one in front of the characters.** -/
theorem identStop?_eq (h : Stands text offset rest) :
    identStop? .accepted text offset = .ok ((length? rest).map (offset + ·)) := by
  have hlength : length? (utf8Bytes rest) = length? rest := length?_utf8 rest
  rw [identStop?, h.bytesFrom_eq, ok_bind, ← hlength]
  cases hbytes : utf8Bytes rest with
  | nil =>
    have hbody := h.bodyStop?_eq
    rw [hbytes] at hbody
    exact hbody
  | cons byte others =>
    rw [List.head?_cons, Option.any_some, length?]
    by_cases hdash : is '-' byte = true
    · obtain ⟨left, hleft, hothers⟩ :=
        h.advance_byte hbytes (isPart_of_isNameUnit (isNameUnit_of_dash hdash))
      rw [if_pos hdash, if_pos hdash, hleft.bodyStop?_eq, hothers, Option.map_map]
      congr 2
      funext n
      rw [Function.comp_apply, Nat.add_assoc, Nat.add_comm 1]
    · rw [if_neg hdash, if_neg hdash, h.bodyStop?_eq, hbytes]

/-! ### Blanks -/

theorem skipBlanks_rounds (h : Stands text offset rest) (hrounds : utf8Width rest < rounds) :
    Cursor.skipBlanks text rounds offset =
      .ok (offset + utf8Width (rest.takeWhile Scanner.isBlank)) := by
  induction rounds generalizing offset rest with
  | zero => exact absurd hrounds (Nat.not_lt_zero _)
  | succ rounds ih =>
    rw [Cursor.skipBlanks, h.char?_eq, ok_bind]
    cases rest with
    | nil => rfl
    | cons c rest =>
      rw [List.head?_cons, Option.any_some]
      by_cases hc : Scanner.isBlank c = true
      · have hsize : c.utf8Size = 1 := by
          have hblank : c = ' ' ∨ c = '\t' := by simpa [Scanner.isBlank] using hc
          rcases hblank with rfl | rfl <;> rfl
        have htail := h.tail
        rw [hsize] at htail
        rw [utf8Width_cons, hsize] at hrounds
        rw [if_pos hc, ih htail (by omega), List.takeWhile_cons_of_pos hc, utf8Width_cons, hsize,
          Nat.add_assoc]
      · rw [if_neg hc, List.takeWhile_cons_of_neg hc]
        rfl

end Stands

/-! ## Steps are the same -/

namespace Cursor

open Offset Fault

variable {isAlphanumeric : Char → Bool} {text : String} {c : Char} {scanner : Scanner}

/-- The offset and the state of a scanner. -/
def ofScanner (scanner : Scanner) : Cursor := ⟨scanner.position, scanner.state⟩

/-- What a step of a scanner comes to, the scanner by its offset and its state. -/
def ofStep (result : Option Token × Scanner) : Option Token × Cursor :=
  (result.1, ofScanner result.2)

theorem takeMark_eq (h : Stands text scanner.position scanner.rest)
    (hc : scanner.rest.head? = some c) (hsize : c.utf8Size = 1) (kind : TokenKind)
    (next : Scanner.State) :
    takeMark text scanner.position kind next = .ok (ofStep (scanner.takeChar kind next)) := by
  obtain ⟨rest, position, state⟩ := scanner
  obtain ⟨rest, rfl⟩ := List.head?_eq_some_iff.mp hc
  have hwidth : utf8Width [c] = 1 := hsize
  have hpart : part text position (position + utf8Width [c]) = .ok (String.ofList [c]) := h.part_eq
  unfold takeMark Scanner.takeChar Scanner.advance
  dsimp only [List.take, List.drop]
  rw [hwidth] at hpart ⊢
  rw [hpart]
  rfl

theorem takeIdent_eq (h : Stands text scanner.position scanner.rest) (kind : TokenKind)
    (expected : Expected) (next : Scanner.State) :
    takeIdent .accepted text scanner.position kind expected next =
      .ok (ofStep (scanner.takeIdent kind expected next)) := by
  rw [takeIdent, h.identStop?_eq, ok_bind, Scanner.takeIdent]
  cases hsplit : Ident.split? scanner.rest with
  | none =>
    rw [Option.map_eq_none_iff.mp hsplit]
    rfl
  | some parts =>
    obtain ⟨taken, left⟩ := parts
    -- the characters of an identifier have one byte each
    have hwidth : utf8Width taken = taken.length := utf8Width_eq_length fun c hc =>
      Scanner.lt_of_isPart ((Ident.derives_of_split? hsplit).pieces.isPart_of_mem c hc)
    rw [← Ident.split?_append hsplit] at h
    rw [Ident.length?_of_split? hsplit, Option.map_some, ← hwidth]
    dsimp only
    rw [h.part_eq]
    rfl

theorem beginTerm_eq (h : Stands text scanner.position scanner.rest) :
    beginTerm isAlphanumeric text scanner.position =
      .ok (ofStep (scanner.beginTerm isAlphanumeric)) := by
  rw [beginTerm, h.char?_eq, ok_bind, Scanner.beginTerm]
  cases hc : scanner.rest.head? with
  | none => rfl
  | some c =>
    dsimp only
    split_ifs with hhash hdot hstar
    · rfl
    · rfl
    · subst hstar
      obtain ⟨rest, hrest⟩ := List.head?_eq_some_iff.mp hc
      unfold Scanner.takeChar Scanner.advance
      rw [hrest]
      rfl
    · rfl
    · rfl

theorem stands_skipBlanks (h : Stands text scanner.position scanner.rest) :
    Stands text scanner.skipBlanks.position scanner.skipBlanks.rest := by
  rw [← @List.takeWhile_append_dropWhile _ Scanner.isBlank scanner.rest] at h
  exact h.advance

theorem skipBlanks_eq (h : Stands text scanner.position scanner.rest) :
    skipBlanks text (text.utf8ByteSize + 1) scanner.position = .ok scanner.skipBlanks.position := by
  have hsize := h.utf8ByteSize_eq
  exact h.skipBlanks_rounds (by omega)

/-- **A step by offsets is a step of the scanner.** No access fails where the characters stand that
the scanner has in front of it, with a mark where its state says so. -/
theorem step_eq (h : Stands text scanner.position scanner.rest) (hr : scanner.Ready) :
    step .accepted isAlphanumeric text (ofScanner scanner) =
      .ok (ofStep (scanner.step isAlphanumeric)) := by
  obtain ⟨rest, position, state⟩ := scanner
  cases state with
  | start =>
    unfold step ofScanner
    dsimp only
    rw [skipBlanks_eq h, ok_bind]
    exact beginTerm_eq (stands_skipBlanks h)
  | idPrefix => exact takeMark_eq h hr rfl ..
  | classPrefix => exact takeMark_eq h hr rfl ..
  | idName => exact takeIdent_eq h ..
  | elementName => exact takeIdent_eq h ..
  | className => exact takeIdent_eq h ..
  | elementSuffix =>
    unfold step ofScanner
    dsimp only
    rw [h.char?_eq]
    rfl
  | done => rfl

-- A scanner that is not ready, an offset inside a character and one beyond the end.
example : step .accepted (fun _ => true) "ü" ⟨0, .idPrefix⟩ = .error (.inside 1) := by decide

example : step .accepted (fun _ => true) "ü" ⟨1, .start⟩ = .error (.inside 1) := by decide

example : step .accepted (fun _ => true) "#ü" ⟨4, .idName⟩ = .error (.beyond 4) := by decide

end Cursor

end DomSelect
