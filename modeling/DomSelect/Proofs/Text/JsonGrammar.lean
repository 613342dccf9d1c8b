import DomSelect.Json
import DomSelect.Text.Digits
import Mathlib.Data.List.Forall2
import Mathlib.Tactic.SplitIfs

/-!
# The grammar of JSON text

`Written` says which texts stand for a value, whatever white space is between their parts. The text
that is written for a value is one of them (`written_render`): by induction on the value, the parts
of a list or an object being written before they are put on lines of their own.
-/

namespace DomSelect.JsonValue

/-! ## Which texts stand for a value -/

/-- White space between the parts of a text. -/
def IsGap (text : List Char) : Prop := ∀ c ∈ text, c ∈ [' ', '\t', '\n', '\r']

/-- The letters that name a character behind a backslash, each with its character. -/
def namedEscapes : List (Char × Char) :=
  [('"', '"'), ('\\', '\\'), ('/', '/'), ('b', '\x08'), ('f', '\x0c'), ('n', '\n'), ('r', '\r'),
    ('t', '\t')]

/-- A hexadecimal digit of either case. -/
def IsHexDigit (digit : Char) : Prop := digit ∈ "0123456789abcdefABCDEF".toList

/-- The written forms of a character between quotes. -/
inductive WrittenChar : Char → List Char → Prop
  | plain {c : Char} (hq : c ≠ '"') (hs : c ≠ '\\') (hc : 0x20 ≤ c.toNat) : WrittenChar c [c]
  | named {c letter : Char} (h : (letter, c) ∈ namedEscapes) : WrittenChar c ['\\', letter]
  | numbered {c : Char} {digits : List Char} (hl : digits.length = 4)
      (hd : ∀ digit ∈ digits, IsHexDigit digit) (hn : numberOf 16 digits = c.toNat) :
      WrittenChar c ('\\' :: 'u' :: digits)

/-- The written forms of a text between quotes. -/
inductive WrittenText : List Char → List Char → Prop
  | nil : WrittenText [] []
  | cons {c : Char} {form text body : List Char} (h : WrittenChar c form)
      (hr : WrittenText text body) : WrittenText (c :: text) (form ++ body)

/-- The written forms of some parts, with commas and white space between them. -/
inductive WrittenParts {α : Type} (Written : α → List Char → Prop) : List α → List Char → Prop
  | none {gap : List Char} (h : IsGap gap) : WrittenParts Written [] gap
  | last {part : α} {before text after : List Char} (hb : IsGap before) (h : Written part text)
      (ha : IsGap after) : WrittenParts Written [part] (before ++ text ++ after)
  | more {part next : α} {rest : List α} {before text after others : List Char}
      (hb : IsGap before) (h : Written part text) (ha : IsGap after)
      (hr : WrittenParts Written (next :: rest) others) :
      WrittenParts Written (part :: next :: rest) (before ++ text ++ after ++ ',' :: others)

mutual

/-- The written forms of a value. -/
inductive Written : JsonValue → List Char → Prop
  | null : Written null "null".toList
  | number (value : Nat) : Written (number value) (Nat.toDigits 10 value)
  | text {value : String} {body : List Char} (h : WrittenText value.toList body) :
      Written (text value) ('"' :: body ++ ['"'])
  | list {values : List JsonValue} {body : List Char} (h : WrittenParts Written values body) :
      Written (list values) ('[' :: body ++ [']'])
  | object {fields : List (String × JsonValue)} {body : List Char}
      (h : WrittenParts WrittenField fields body) :
      Written (object fields) ('\x7b' :: body ++ ['\x7d'])

/-- The written forms of a named value. -/
inductive WrittenField : String × JsonValue → List Char → Prop
  | field {name : String} {value : JsonValue} {label gap text : List Char}
      (hl : WrittenText name.toList label) (hg : IsGap gap) (h : Written value text) :
      WrittenField (name, value) ('"' :: label ++ '"' :: ':' :: gap ++ text)

end

/-! ## Texts -/

theorem numberOf_replicate_zero (count : Nat) (digits : List Char) :
    numberOf 16 (List.replicate count '0' ++ digits) = numberOf 16 digits := by
  induction count with
  | zero => rfl
  | succ count ih => exact ih

theorem toDigits_of_control {n : Nat} (h : n < 0x20) :
    (Nat.toDigits 16 n).length ≤ 4 ∧ ∀ digit ∈ Nat.toDigits 16 n, IsHexDigit digit := by
  have hall : ∀ n < 0x20, (Nat.toDigits 16 n).length ≤ 4 ∧
      (Nat.toDigits 16 n).all "0123456789abcdefABCDEF".toList.contains = true := by
    decide
  obtain ⟨hlength, hdigits⟩ := hall n h
  exact ⟨hlength, fun digit hdigit =>
    List.contains_iff_mem.mp (List.all_eq_true.mp hdigits digit hdigit)⟩

theorem written_codeDigits {c : Char} (h : c.toNat < 0x20) :
    WrittenChar c ('\\' :: 'u' :: codeDigits c) := by
  obtain ⟨hlength, hdigits⟩ := toDigits_of_control h
  unfold codeDigits
  refine .numbered ?_ (List.forall_mem_append.mpr ⟨?_, hdigits⟩) ?_
  · rw [List.length_append, List.length_replicate]
    omega
  · intro digit hdigit
    rw [List.eq_of_mem_replicate hdigit]
    exact List.mem_cons_self
  · rw [numberOf_replicate_zero, numberOf_toDigits]

theorem written_encodeChar (c : Char) : WrittenChar c (encodeChar c) := by
  unfold encodeChar
  split_ifs with hquote hslash hback htab hline hform hreturn hcode
  · subst hquote; exact .named (by decide)
  · subst hslash; exact .named (by decide)
  · subst hback; exact .named (by decide)
  · subst htab; exact .named (by decide)
  · subst hline; exact .named (by decide)
  · subst hform; exact .named (by decide)
  · subst hreturn; exact .named (by decide)
  · exact written_codeDigits hcode
  · exact .plain hquote hslash (Nat.le_of_not_lt hcode)

theorem written_flatMap (text : List Char) : WrittenText text (text.flatMap encodeChar) := by
  induction text with
  | nil => exact .nil
  | cons c text ih => exact .cons (written_encodeChar c) ih

theorem toList_encodeText (value : String) :
    (encodeText value).toList = '"' :: value.toList.flatMap encodeChar ++ ['"'] := by
  rw [encodeText, String.toList_ofList]

/-! ## Parts on lines of their own -/

section

variable {α : Type} {WrittenPart : α → List Char → Prop} {parts : List α} {texts : List String}

theorem isGap_nil : IsGap [] := fun _ hc => absurd hc List.not_mem_nil

theorem isGap_newLine (level : Nat) : IsGap (newLine level).toList := by
  intro c hc
  simp only [newLine, String.toList_append, String.toList_ofList, List.mem_append] at hc
  rcases hc with hc | hc
  · obtain rfl := List.mem_singleton.mp hc
    decide
  · rw [List.eq_of_mem_replicate hc]
    decide

/-- Parts that are written remain so on lines of their own. -/
theorem writtenParts_lines (h : List.Forall₂ WrittenPart parts (texts.map String.toList))
    (hne : texts ≠ []) (level inner : Nat) :
    WrittenParts WrittenPart parts ((newLine inner).toList ++
      (("," ++ newLine inner).intercalate texts).toList ++ (newLine level).toList) := by
  induction texts generalizing parts with
  | nil => exact absurd rfl hne
  | cons first texts ih =>
    rw [List.map_cons] at h
    cases h with
    | @cons part _ rest _ hfirst hrest =>
      cases texts with
      | nil =>
        cases hrest
        rw [String.intercalate_singleton]
        exact .last (isGap_newLine inner) hfirst (isGap_newLine level)
      | cons second texts =>
        have hmore := ih hrest (List.cons_ne_nil _ _)
        cases hrest with
        | cons hsecond hothers =>
          have hall := WrittenParts.more (isGap_newLine inner) hfirst isGap_nil hmore
          rw [String.intercalate_cons_cons]
          simpa using hall

/-- Between two brackets stand the written parts. -/
theorem toList_enclose (h : List.Forall₂ WrittenPart parts (texts.map String.toList))
    (opening closing : String) (level : Nat) :
    ∃ body, (enclose opening closing level texts).toList =
        opening.toList ++ body ++ closing.toList ∧
      WrittenParts WrittenPart parts body := by
  cases texts with
  | nil =>
    cases h
    exact ⟨[], by simp [enclose], .none isGap_nil⟩
  | cons first texts =>
    refine ⟨_, ?_, writtenParts_lines h (List.cons_ne_nil _ _) level (level + 1)⟩
    simp [enclose]

end

/-! ## Values -/

mutual

theorem written_renderAt (level : Nat) :
    ∀ value : JsonValue, Written value (renderAt level value).toList
  | null => .null
  | number value => by
    have hdigits : (toString value).toList = Nat.toDigits 10 value := String.toList_ofList
    rw [renderAt, hdigits]
    exact .number value
  | text value => by
    rw [renderAt, toList_encodeText]
    exact .text (written_flatMap _)
  | list values => by
    obtain ⟨body, htext, hbody⟩ :=
      toList_enclose (written_renderAll (level + 1) values) "[" "]" level
    rw [renderAt, htext]
    exact .list hbody
  | object fields => by
    obtain ⟨body, htext, hbody⟩ :=
      toList_enclose (written_renderFields (level + 1) fields) "\x7b" "\x7d" level
    rw [renderAt, htext]
    exact .object hbody

theorem written_renderAll (level : Nat) : ∀ values : List JsonValue,
    List.Forall₂ Written values ((renderAll level values).map String.toList)
  | [] => .nil
  | value :: rest => .cons (written_renderAt level value) (written_renderAll level rest)

theorem written_renderFields (level : Nat) : ∀ fields : List (String × JsonValue),
    List.Forall₂ WrittenField fields ((renderFields level fields).map String.toList)
  | [] => .nil
  | (name, value) :: rest => by
    refine .cons ?_ (written_renderFields level rest)
    have hgap : IsGap [' '] := by
      intro c hc
      obtain rfl := List.mem_singleton.mp hc
      decide
    have hfield := WrittenField.field (written_flatMap name.toList) hgap
      (written_renderAt level value)
    simpa [toList_encodeText] using hfield

end

/-- **What is written for a value stands for it.** -/
theorem written_render (value : JsonValue) : Written value value.render.toList :=
  written_renderAt 0 value

end DomSelect.JsonValue
