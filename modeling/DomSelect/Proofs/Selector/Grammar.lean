import DomSelect.Selector.Ident
import Mathlib.Data.List.TakeWhile

/-!
# The grammar of identifiers

`Derives` is the grammar that `length?` reads: an optional `-`, a first piece and further pieces.
The order in which escapes are tried shows in one place only. Hexadecimal digits that begin like a
fixed escape are no hexadecimal escape; what follows the fixed escape must be pieces again.

With this reservation the length that is found is that of the longest derivable head of the text
(`length?_eq_some_iff`): where a hexadecimal escape takes digits that a derivation takes as name
units, the derivation is met again at a later unit (`Pieces.length_le_tailLength`). An identifier is
thus a derivable text (`length?_eq_length_iff`), two of them in a row are one, and what follows in
the text does not matter if it begins with a unit that is no part of identifiers
(`length?_append`).
-/

namespace DomSelect.Ident

open CodeUnit

variable {α : Type} [CodeUnit α] {text first rest esc : List α} {unit slash : α} {n pending : Nat}

/-! ## Derivations -/

/-- A backslash with what makes it an escape. -/
inductive Escape : List α → Prop
  | fixed {slash page tens ones : α} (hs : is '\\' slash = true)
      (hp : (is '2' page || is '3' page) = true) (ht : isDigit tens = true)
      (ho : isDigit ones = true) : Escape [slash, page, tens, ones]
  | hex {slash : α} {digits : List α} (hs : is '\\' slash = true)
      (hd : ∀ digit ∈ digits, isHexDigit digit = true) (hne : digits ≠ [])
      (hlen : digits.length ≤ 6) (hno : startsFixedEscape (slash :: digits) = false) :
      Escape (slash :: digits)
  | double {slash second last : α} (hs : is '\\' slash = true) (h2 : is '\\' second = true)
      (hl : isTerminator last = true) : Escape [slash, second, last]

/-- Any number of name units and escapes. -/
inductive Pieces : List α → Prop
  | nil : Pieces []
  | unit {unit : α} {rest : List α} (hu : isNameUnit unit = true) (hr : Pieces rest) :
      Pieces (unit :: rest)
  | escape {esc rest : List α} (he : Escape esc) (hr : Pieces rest) : Pieces (esc ++ rest)

/-- Pieces of which the first one is no `-` and no digit. -/
inductive Body : List α → Prop
  | unit {unit : α} {rest : List α} (hu : isNameStart unit = true) (hr : Pieces rest) :
      Body (unit :: rest)
  | escape {esc rest : List α} (he : Escape esc) (hr : Pieces rest) : Body (esc ++ rest)

/-- Identifiers. -/
inductive Derives : List α → Prop
  | plain {body : List α} (hb : Body body) : Derives body
  | dashed {dash : α} {body : List α} (hd : is '-' dash = true) (hb : Body body) :
      Derives (dash :: body)

/-- Units that occur in identifiers. -/
def isPart (unit : α) : Bool :=
  isNameUnit unit || isHexDigit unit || is '\\' unit || isTerminator unit

/-! ## Units -/

theorem isNameUnit_of_isNameStart (h : isNameStart unit = true) : isNameUnit unit = true := by
  unfold isNameUnit
  rw [h]
  rfl

theorem isHexDigit_of_isDigit (h : isDigit unit = true) : isHexDigit unit = true := by
  unfold isHexDigit
  rw [h]
  rfl

theorem isDigit_of_page (h : (is '2' unit || is '3' unit) = true) : isDigit unit = true := by
  simp only [is, isDigit, between, Bool.or_eq_true, beq_iff_eq, Bool.and_eq_true,
    decide_eq_true_eq] at h ⊢
  rcases h with h | h <;> rw [h] <;> decide

theorem isNameUnit_of_slash (h : is '\\' slash = true) : isNameUnit slash = false := by
  simp only [is, beq_iff_eq] at h
  simp only [isNameUnit, isNameStart, isDigit, is, between, h]
  decide

theorem isHexDigit_of_slash (h : is '\\' slash = true) : isHexDigit slash = false := by
  simp only [is, beq_iff_eq] at h
  simp only [isHexDigit, isDigit, between, h]
  decide

theorem is_dash_of_slash (h : is '\\' slash = true) : is '-' slash = false := by
  simp only [is, beq_iff_eq] at h
  simp only [is, h]
  decide

theorem is_dash_of_isNameStart (h : isNameStart unit = true) : is '-' unit = false := by
  rw [Bool.eq_false_iff]
  intro hd
  simp only [is, beq_iff_eq] at hd
  simp only [isNameStart, is, between, hd] at h
  exact absurd h (by decide)

theorem isNameUnit_of_dash (h : is '-' unit = true) : isNameUnit unit = true := by
  unfold isNameUnit
  rw [h, Bool.or_true]
  rfl

/-! ## Escapes -/

theorem Escape.exists_cons (h : Escape esc) : ∃ slash rest, esc = slash :: rest ∧
    is '\\' slash = true := by
  cases h with
  | fixed hs => exact ⟨_, _, rfl, hs⟩
  | hex hs => exact ⟨_, _, rfl, hs⟩
  | double hs => exact ⟨_, _, rfl, hs⟩

theorem startsFixedEscape_append (h : startsFixedEscape text = true) (rest : List α) :
    startsFixedEscape (text ++ rest) = true := by
  unfold startsFixedEscape at h
  split at h
  · exact h
  · cases h

/-- A fixed escape is made of three digits after the backslash. -/
theorem take_of_startsFixedEscape (h : startsFixedEscape text = true) :
    Escape (text.take 4) ∧ 4 ≤ text.length ∧ ∀ u ∈ (text.drop 1).take 3, isHexDigit u = true := by
  unfold startsFixedEscape at h
  split at h
  · next slash page tens ones rest =>
    simp only [Bool.and_eq_true] at h
    obtain ⟨⟨⟨hs, hp⟩, ht⟩, ho⟩ := h
    refine ⟨.fixed hs hp ht ho, ?_, ?_⟩
    · simp only [List.length_cons]
      omega
    · intro u hu
      simp only [List.drop_succ_cons, List.drop_zero, List.take_succ_cons, List.take_zero,
        List.mem_cons, List.not_mem_nil, or_false] at hu
      rcases hu with rfl | rfl | rfl
      · exact isHexDigit_of_isDigit (isDigit_of_page hp)
      · exact isHexDigit_of_isDigit ht
      · exact isHexDigit_of_isDigit ho
  · cases h

theorem hexEscapeDigits_cons (hs : is '\\' slash = true) (rest : List α) :
    hexEscapeDigits (slash :: rest) = ((rest.take 6).takeWhile isHexDigit).length := by
  simp only [hexEscapeDigits, if_pos hs]

theorem isHexDigit_of_mem_take (count : Nat) (rest : List α) :
    ∀ u ∈ rest.take ((rest.take count).takeWhile isHexDigit).length, isHexDigit u = true := by
  intro u hu
  have hpre : (rest.take count).takeWhile isHexDigit <+: rest :=
    (List.takeWhile_prefix isHexDigit).trans (List.take_prefix ..)
  rw [← List.prefix_iff_eq_take.mp hpre] at hu
  exact List.mem_takeWhile_imp hu

/-- In a text that goes on, an escape is read as far as it goes and perhaps some hexadecimal digits
further. -/
theorem Escape.escapeLength_append (h : Escape esc) (rest : List α) :
    ∃ more, escapeLength (esc ++ rest) = esc.length + more ∧
      ∀ u ∈ rest.take more, isHexDigit u = true := by
  unfold escapeLength
  cases h with
  | @fixed slash page tens ones hs hp ht ho =>
    refine ⟨0, ?_, by simp⟩
    rw [if_pos (startsFixedEscape_append (by simp [startsFixedEscape, hs, hp, ht, ho]) rest)]
    rfl
  | @hex slash digits hs hd hne hlen hno =>
    by_cases hf : startsFixedEscape (slash :: digits ++ rest) = true
    · rw [if_pos hf]
      have hshort : digits.length < 3 := by
        refine Nat.lt_of_not_le fun hle => ?_
        have : 3 ≤ digits.length := hle
        match digits, this with
        | page :: tens :: ones :: _, _ =>
          simp only [startsFixedEscape, List.cons_append] at hf hno
          rw [hf] at hno
          cases hno
      refine ⟨3 - digits.length, by rw [List.length_cons]; omega, fun u hu => ?_⟩
      refine (take_of_startsFixedEscape hf).2.2 u ?_
      rw [List.cons_append, List.drop_succ_cons, List.drop_zero, List.take_append]
      exact List.mem_append_right _ hu
    · have hdigits : hexEscapeDigits (slash :: digits ++ rest) = digits.length +
          ((rest.take (6 - digits.length)).takeWhile isHexDigit).length := by
        rw [List.cons_append, hexEscapeDigits_cons hs, List.take_append,
          List.take_of_length_le hlen, List.takeWhile_append_of_pos hd, List.length_append]
      have hpos : 0 < digits.length := List.length_pos_iff.mpr hne
      rw [if_neg hf, hdigits, if_pos (by omega)]
      refine ⟨_, ?_, isHexDigit_of_mem_take (6 - digits.length) rest⟩
      rw [List.length_cons]
      omega
  | @double slash second last hs h2 hl =>
    have hf : ¬ startsFixedEscape ([slash, second, last] ++ rest) = true := by
      intro hf
      have := (take_of_startsFixedEscape hf).2.2 second (by simp)
      rw [isHexDigit_of_slash h2] at this
      cases this
    have hx : hexEscapeDigits ([slash, second, last] ++ rest) = 0 := by
      rw [List.cons_append, hexEscapeDigits_cons hs]
      simp [isHexDigit_of_slash h2]
    refine ⟨0, ?_, by simp⟩
    rw [if_neg hf, hx, if_neg (Nat.lt_irrefl 0),
      if_pos (by simp [startsDoubleEscape, hs, h2, hl])]
    rfl

theorem take_of_hexEscapeDigits (hf : ¬ startsFixedEscape text = true)
    (hpos : 0 < hexEscapeDigits text) :
    hexEscapeDigits text + 1 ≤ text.length ∧ Escape (text.take (hexEscapeDigits text + 1)) := by
  cases text with
  | nil => exact absurd hpos (Nat.lt_irrefl 0)
  | cons slash rest =>
    by_cases hs : is '\\' slash = true
    · rw [hexEscapeDigits_cons hs] at hpos ⊢
      have hlen : ((rest.take 6).takeWhile isHexDigit).length ≤ (rest.take 6).length :=
        (List.takeWhile_prefix isHexDigit).length_le
      have hmem := isHexDigit_of_mem_take 6 rest
      generalize ((rest.take 6).takeWhile isHexDigit).length = count at *
      rw [List.length_take] at hlen
      have htake : (rest.take count).length = count := by
        rw [List.length_take]
        omega
      refine ⟨by rw [List.length_cons]; omega, ?_⟩
      rw [List.take_succ_cons]
      refine .hex hs hmem ?_ (by omega) ?_
      · rw [← List.length_pos_iff]
        omega
      · rw [Bool.eq_false_iff]
        intro hfixed
        have := startsFixedEscape_append hfixed (rest.drop count)
        rw [List.cons_append, List.take_append_drop] at this
        exact hf this
    · rw [hexEscapeDigits, if_neg hs] at hpos
      exact absurd hpos (Nat.lt_irrefl 0)

theorem take_of_startsDoubleEscape (h : startsDoubleEscape text = true) :
    3 ≤ text.length ∧ Escape (text.take 3) := by
  unfold startsDoubleEscape at h
  split at h
  · simp only [Bool.and_eq_true] at h
    refine ⟨?_, .double h.1.1 h.1.2 h.2⟩
    simp only [List.length_cons]
    omega
  · cases h

/-- What is read as an escape is one. -/
theorem escape_take (h : escapeLength text = n + 1) :
    n + 1 ≤ text.length ∧ Escape (text.take (n + 1)) := by
  unfold escapeLength at h
  split at h
  · next hf =>
    obtain rfl : 3 = n := Nat.succ.inj h
    obtain ⟨hesc, hlen, -⟩ := take_of_startsFixedEscape hf
    exact ⟨hlen, hesc⟩
  · next hf =>
    split at h
    · next hpos =>
      rw [← h]
      exact take_of_hexEscapeDigits hf hpos
    · split at h
      · next hd =>
        obtain rfl : 2 = n := Nat.succ.inj h
        exact take_of_startsDoubleEscape hd
      · cases h

theorem exists_slash (h : escapeLength text = n + 1) :
    ∃ slash rest, text = slash :: rest ∧ is '\\' slash = true ∧ n ≤ rest.length := by
  obtain ⟨hle, hesc⟩ := escape_take h
  obtain ⟨slash, others, hcons, hs⟩ := hesc.exists_cons
  cases text with
  | nil => cases hcons
  | cons unit rest =>
    obtain ⟨rfl, -⟩ := List.cons.inj hcons
    exact ⟨unit, rest, rfl, hs, Nat.le_of_succ_le_succ hle⟩

theorem escapeLength_of_not_slash (h : is '\\' unit = false) (rest : List α) :
    escapeLength (unit :: rest) = 0 := by
  cases he : escapeLength (unit :: rest) with
  | zero => rfl
  | succ n =>
    obtain ⟨slash, others, hcons, hs, -⟩ := exists_slash he
    rw [(List.cons.inj hcons).1, hs] at h
    cases h

/-! ## Pieces -/

theorem tailLength_unit (h : isNameUnit unit = true) (rest : List α) :
    tailLength 0 (unit :: rest) = tailLength 0 rest + 1 := by
  rw [tailLength, if_pos h]

theorem tailLength_escape (hu : isNameUnit unit = false)
    (he : escapeLength (unit :: rest) = n + 1) :
    tailLength 0 (unit :: rest) = tailLength n rest + 1 := by
  rw [tailLength, hu, he]
  rfl

/-- Units known to belong to an escape are passed. -/
theorem tailLength_append (more : Nat) (first rest : List α) :
    tailLength (first.length + more) (first ++ rest) = first.length + tailLength more rest := by
  induction first with
  | nil => rw [List.length_nil, Nat.zero_add, Nat.zero_add, List.nil_append]
  | cons unit first ih =>
    rw [List.length_cons, List.cons_append, Nat.add_right_comm, tailLength, ih]
    omega

/-- Behind the rest of an escape, reading goes on as at any place. -/
theorem tailLength_pending (hn : n ≤ rest.length) :
    tailLength n rest = n + tailLength 0 (rest.drop n) := by
  have := tailLength_append 0 (rest.take n) (rest.drop n)
  rwa [List.take_append_drop, List.length_take_of_le hn] at this

/-- What is read as pieces are pieces. -/
theorem pieces_take (text : List α) :
    tailLength 0 text ≤ text.length ∧ Pieces (text.take (tailLength 0 text)) := by
  induction hlen : text.length using Nat.strong_induction_on generalizing text with
  | _ length ih =>
    subst hlen
    cases text with
    | nil => exact ⟨Nat.le_refl _, .nil⟩
    | cons unit rest =>
      by_cases hu : isNameUnit unit = true
      · obtain ⟨hle, hp⟩ := ih rest.length (Nat.lt_succ_self _) rest rfl
        rw [tailLength_unit hu, List.take_succ_cons]
        exact ⟨Nat.succ_le_succ hle, .unit hu hp⟩
      · rw [Bool.not_eq_true] at hu
        cases he : escapeLength (unit :: rest) with
        | zero =>
          rw [tailLength, hu, he]
          exact ⟨Nat.zero_le _, .nil⟩
        | succ n =>
          obtain ⟨hle, hesc⟩ := escape_take he
          have hn : n ≤ rest.length := Nat.le_of_succ_le_succ hle
          obtain ⟨hle', hp⟩ := ih (rest.drop n).length (by
            rw [List.length_drop, List.length_cons]
            omega) (rest.drop n) rfl
          -- the rest of the escape is passed at once
          rw [tailLength_escape hu he, tailLength_pending hn, List.length_cons]
          rw [List.length_drop] at hle'
          refine ⟨by omega, ?_⟩
          have : n + tailLength 0 (rest.drop n) + 1 = n + 1 + tailLength 0 (rest.drop n) := by omega
          rw [this, List.take_add]
          exact .escape hesc hp

/-- No derivation goes further than what is read, from whatever hexadecimal digits of it on. -/
theorem Pieces.length_le_tailLength (h : Pieces first) (rest : List α) {pending : Nat}
    (hp : ∀ u ∈ first.take pending, isHexDigit u = true) :
    first.length ≤ tailLength pending (first ++ rest) := by
  induction h generalizing pending with
  | nil => exact Nat.zero_le _
  | @unit unit first hu _ ih =>
    rw [List.length_cons, List.cons_append]
    cases pending with
    | zero =>
      rw [tailLength_unit hu]
      exact Nat.succ_le_succ (ih (by simp))
    | succ pending =>
      rw [tailLength]
      exact Nat.succ_le_succ (ih fun u hm => hp u (List.mem_cons_of_mem _ hm))
  | @escape esc first he _ ih =>
    obtain ⟨slash, others, rfl, hs⟩ := he.exists_cons
    cases pending with
    | zero =>
      obtain ⟨more, hlen, hmore⟩ := he.escapeLength_append (first ++ rest)
      have hlen' : escapeLength (slash :: (others ++ (first ++ rest))) =
          others.length + more + 1 := by
        rw [← List.cons_append, hlen, List.length_cons]
        omega
      have := ih fun u hm => hmore u (by
        rw [List.take_append]
        exact List.mem_append_left _ hm)
      rw [List.append_assoc, List.cons_append, List.cons_append,
        tailLength_escape (isNameUnit_of_slash hs) hlen', tailLength_append, List.length_cons,
        List.length_append]
      omega
    | succ pending =>
      have := hp slash (by simp)
      rw [isHexDigit_of_slash hs] at this
      cases this

/-! ## Identifiers -/

theorem bodyLength?_eq_some_iff :
    bodyLength? text = some n ↔ n = tailLength 0 text ∧ n ≠ 0 ∧
      ∀ unit, text.head? = some unit → isNameStart unit = true ∨ isNameUnit unit = false := by
  cases text with
  | nil => simp [bodyLength?, tailLength]
  | cons unit rest =>
    simp only [List.head?_cons, Option.some.injEq, forall_eq']
    by_cases hs : isNameStart unit = true
    · rw [bodyLength?, if_pos hs, tailLength_unit (isNameUnit_of_isNameStart hs)]
      simp only [Option.some.injEq, hs, true_or, and_true]
      omega
    · rw [bodyLength?, if_neg hs]
      by_cases hu : isNameUnit unit = true
      · have hslash : is '\\' unit = false := by
          rw [Bool.eq_false_iff]
          intro hslash
          rw [isNameUnit_of_slash hslash] at hu
          cases hu
        rw [escapeLength_of_not_slash hslash]
        simp [hs, hu]
      · rw [Bool.not_eq_true] at hu
        cases he : escapeLength (unit :: rest) with
        | zero =>
          rw [tailLength, hu, he]
          simp
        | succ k =>
          rw [tailLength_escape hu he]
          simp only [Option.some.injEq, hu, or_true, and_true]
          omega

theorem Pieces.body (h : Pieces text) (hne : text ≠ [])
    (hhead : ∀ unit, text.head? = some unit → isNameStart unit = true ∨ isNameUnit unit = false) :
    Body text := by
  cases h with
  | nil => exact absurd rfl hne
  | @unit unit rest hu hr =>
    refine .unit ((hhead unit rfl).resolve_right fun hn => ?_) hr
    rw [hn] at hu
    cases hu
  | escape he hr => exact .escape he hr

theorem Body.pieces (h : Body text) : Pieces text := by
  cases h with
  | unit hu hr => exact .unit (isNameUnit_of_isNameStart hu) hr
  | escape he hr => exact .escape he hr

theorem Body.head (h : Body text) : ∃ unit, text.head? = some unit ∧
    (isNameStart unit = true ∨ isNameUnit unit = false) ∧ is '-' unit = false := by
  cases h with
  | unit hu => exact ⟨_, rfl, .inl hu, is_dash_of_isNameStart hu⟩
  | escape he =>
    obtain ⟨slash, others, rfl, hs⟩ := he.exists_cons
    exact ⟨slash, rfl, .inr (isNameUnit_of_slash hs), is_dash_of_slash hs⟩

theorem Derives.pieces (h : Derives text) : Pieces text := by
  cases h with
  | plain hb => exact hb.pieces
  | dashed hd hb => exact .unit (isNameUnit_of_dash hd) hb.pieces

theorem body_take (h : bodyLength? text = some n) : n ≤ text.length ∧ Body (text.take n) := by
  obtain ⟨rfl, hne, hhead⟩ := bodyLength?_eq_some_iff.mp h
  obtain ⟨hle, hp⟩ := pieces_take text
  refine ⟨hle, hp.body ?_ ?_⟩
  · rw [← List.length_pos_iff, List.length_take_of_le hle]
    omega
  · rw [List.head?_take, if_neg hne]
    exact hhead

/-- What is read as an identifier is one. -/
theorem derives_take (h : length? text = some n) : n ≤ text.length ∧ Derives (text.take n) := by
  cases text with
  | nil => cases h
  | cons unit rest =>
    rw [length?] at h
    split at h
    · next hd =>
      obtain ⟨k, hk, rfl⟩ := Option.map_eq_some_iff.mp h
      obtain ⟨hle, hb⟩ := body_take hk
      exact ⟨Nat.succ_le_succ hle, .dashed hd hb⟩
    · obtain ⟨hle, hb⟩ := body_take h
      exact ⟨hle, .plain hb⟩

theorem Body.exists_bodyLength? (h : Body first) (rest : List α) :
    ∃ n, bodyLength? (first ++ rest) = some n ∧ first.length ≤ n := by
  obtain ⟨unit, hunit, hstart, -⟩ := h.head
  have hle : first.length ≤ tailLength 0 (first ++ rest) :=
    h.pieces.length_le_tailLength rest (by simp)
  refine ⟨_, bodyLength?_eq_some_iff.mpr ⟨rfl, ?_, ?_⟩, hle⟩
  · cases first with
    | nil => cases hunit
    | cons _ _ =>
      rw [List.length_cons] at hle
      omega
  · rw [List.head?_append, hunit]
    rintro _ ⟨⟩
    exact hstart

/-- A text that begins with an identifier is read at least as far. -/
theorem Derives.exists_length? (h : Derives first) (rest : List α) :
    ∃ n, length? (first ++ rest) = some n ∧ first.length ≤ n := by
  cases h with
  | plain hb =>
    obtain ⟨unit, hunit, -, hdash⟩ := hb.head
    obtain ⟨n, hn, hle⟩ := hb.exists_bodyLength? rest
    cases first with
    | nil => cases hunit
    | cons head others =>
      obtain rfl : head = unit := Option.some.inj hunit
      refine ⟨n, ?_, hle⟩
      rw [List.cons_append, length?, hdash]
      exact hn
  | @dashed dash body hd hb =>
    obtain ⟨n, hn, hle⟩ := hb.exists_bodyLength? rest
    refine ⟨n + 1, ?_, Nat.succ_le_succ hle⟩
    rw [List.cons_append, length?, if_pos hd, hn]
    rfl

/-- **Identifiers are read as far as possible.** -/
theorem length?_eq_some_iff :
    length? text = some n ↔ n ≤ text.length ∧ Derives (text.take n) ∧
      ∀ head, head <+: text → Derives head → head.length ≤ n := by
  constructor
  · intro h
    obtain ⟨hle, hd⟩ := derives_take h
    refine ⟨hle, hd, ?_⟩
    rintro head ⟨rest, rfl⟩ hhead
    obtain ⟨m, hm, hle⟩ := hhead.exists_length? rest
    obtain rfl : n = m := Option.some.inj (h.symm.trans hm)
    exact hle
  · rintro ⟨hle, hd, hall⟩
    obtain ⟨m, hm, hnm⟩ := hd.exists_length? (text.drop n)
    rw [List.take_append_drop] at hm
    obtain ⟨hmle, hdm⟩ := derives_take hm
    have hmn := hall _ (List.take_prefix ..) hdm
    rw [List.length_take_of_le hle] at hnm
    rw [List.length_take_of_le hmle] at hmn
    rw [hm, Nat.le_antisymm hmn hnm]

/-- The identifiers are the texts that are read to their end. -/
theorem length?_eq_length_iff : length? text = some text.length ↔ Derives text := by
  rw [length?_eq_some_iff, List.take_length]
  exact ⟨fun h => h.2.1, fun h => ⟨Nat.le_refl _, h, fun head hp _ => hp.length_le⟩⟩

theorem Derives.ne_nil (h : Derives text) : text ≠ [] := by
  rintro rfl
  have := length?_eq_length_iff.mpr h
  cases this

/-- What is cut off as an identifier is one. -/
theorem derives_of_split? {taken : List α} (h : split? text = some (taken, rest)) :
    Derives taken := by
  obtain ⟨n, hn, he⟩ := Option.map_eq_some_iff.mp h
  rw [← (Prod.mk.inj he).1]
  exact (derives_take hn).2

theorem Derives.head (h : Derives text) : ∃ unit, text.head? = some unit ∧
    (is '-' unit = true ∨ isNameStart unit = true ∨ is '\\' unit = true) := by
  cases h with
  | dashed hd => exact ⟨_, rfl, .inl hd⟩
  | plain hb =>
    cases hb with
    | unit hu => exact ⟨_, rfl, .inr (.inl hu)⟩
    | escape he =>
      obtain ⟨slash, others, rfl, hs⟩ := he.exists_cons
      exact ⟨slash, rfl, .inr (.inr hs)⟩

/-- Two identifiers in a row are one. -/
theorem Derives.append (h : Derives first) (h' : Derives rest) : Derives (first ++ rest) := by
  have hp : ∀ {pieces : List α}, Pieces pieces → Pieces (pieces ++ rest) := by
    intro pieces hp
    induction hp with
    | nil => exact h'.pieces
    | unit hu _ ih => exact .unit hu ih
    | escape he _ ih =>
      rw [List.append_assoc]
      exact .escape he ih
  have hb : ∀ {body : List α}, Body body → Body (body ++ rest) := by
    intro body hb
    cases hb with
    | unit hu hr => exact .unit hu (hp hr)
    | escape he hr =>
      rw [List.append_assoc]
      exact .escape he (hp hr)
  cases h with
  | plain h => exact .plain (hb h)
  | dashed hd h => exact .dashed hd (hb h)

/-! ## What follows an identifier -/

theorem isPart_of_isNameUnit (h : isNameUnit unit = true) : isPart unit = true := by
  unfold isPart
  rw [h]
  rfl

theorem isPart_of_isHexDigit (h : isHexDigit unit = true) : isPart unit = true := by
  unfold isPart
  rw [h, Bool.or_true]
  rfl

theorem isPart_of_slash (h : is '\\' unit = true) : isPart unit = true := by
  unfold isPart
  rw [h, Bool.or_true]
  rfl

theorem isPart_of_isTerminator (h : isTerminator unit = true) : isPart unit = true := by
  unfold isPart
  rw [h, Bool.or_true]

theorem Escape.isPart_of_mem (h : Escape esc) : ∀ u ∈ esc, isPart u = true := by
  intro u hu
  cases h with
  | fixed hs hp ht ho =>
    simp only [List.mem_cons, List.not_mem_nil, or_false] at hu
    rcases hu with rfl | rfl | rfl | rfl
    · exact isPart_of_slash hs
    · exact isPart_of_isHexDigit (isHexDigit_of_isDigit (isDigit_of_page hp))
    · exact isPart_of_isHexDigit (isHexDigit_of_isDigit ht)
    · exact isPart_of_isHexDigit (isHexDigit_of_isDigit ho)
  | hex hs hd =>
    rcases List.mem_cons.mp hu with rfl | hu
    · exact isPart_of_slash hs
    · exact isPart_of_isHexDigit (hd u hu)
  | double hs h2 hl =>
    simp only [List.mem_cons, List.not_mem_nil, or_false] at hu
    rcases hu with rfl | rfl | rfl
    · exact isPart_of_slash hs
    · exact isPart_of_slash h2
    · exact isPart_of_isTerminator hl

theorem Pieces.isPart_of_mem (h : Pieces text) : ∀ u ∈ text, isPart u = true := by
  induction h with
  | nil => exact fun _ hu => absurd hu List.not_mem_nil
  | unit hu _ ih => exact List.forall_mem_cons.mpr ⟨isPart_of_isNameUnit hu, ih⟩
  | escape he _ ih => exact List.forall_mem_append.mpr ⟨he.isPart_of_mem, ih⟩

/-- A unit that is no part of identifiers ends the one before it. -/
theorem length?_append (text : List α)
    (hrest : ∀ unit, rest.head? = some unit → isPart unit = false) :
    length? (text ++ rest) = length? text := by
  cases rest with
  | nil => rw [List.append_nil]
  | cons stop others =>
    have hstop := hrest stop rfl
    have hheads : ∀ head, Derives head → (head <+: text ++ stop :: others ↔ head <+: text) := by
      refine fun head hd => ⟨fun hp => ?_, fun hp => hp.trans (List.prefix_append ..)⟩
      by_contra hno
      have hlong : text ++ [stop] <+: head := by
        refine List.prefix_of_prefix_length_le ⟨others, by simp⟩ hp ?_
        rw [List.length_append, List.length_singleton]
        refine Nat.lt_of_not_le fun hle => hno ?_
        exact List.prefix_of_prefix_length_le hp (List.prefix_append ..) hle
      have := hd.pieces.isPart_of_mem stop (hlong.subset (by simp))
      rw [hstop] at this
      cases this
    have htake : ∀ n, Derives ((text ++ stop :: others).take n) →
        n ≤ (text ++ stop :: others).length → n ≤ text.length := by
      intro n hd hn
      have := ((hheads _ hd).mp (List.take_prefix ..)).length_le
      rwa [List.length_take_of_le hn] at this
    refine Option.ext fun n => ?_
    rw [length?_eq_some_iff, length?_eq_some_iff]
    constructor
    · rintro ⟨hn, hd, hall⟩
      have hle := htake n hd hn
      rw [List.take_append_of_le_length hle] at hd
      exact ⟨hle, hd, fun head hp hh => hall head ((hheads head hh).mpr hp) hh⟩
    · rintro ⟨hle, hd, hall⟩
      refine ⟨?_, ?_, fun head hp hh => hall head ((hheads head hh).mp hp) hh⟩
      · rw [List.length_append]
        omega
      · rwa [List.take_append_of_le_length hle]

/-- Cutting off the identifier leaves what comes behind such a unit where it is. -/
theorem split?_append_rest (text : List α)
    (hrest : ∀ unit, rest.head? = some unit → isPart unit = false) :
    split? (text ++ rest) = (split? text).map fun parts => (parts.1, parts.2 ++ rest) := by
  rw [split?, split?, length?_append text hrest]
  cases hlen : length? text with
  | none => rfl
  | some n =>
    have hle := (derives_take hlen).1
    simp [List.take_append_of_le_length hle, List.drop_append_of_le_length hle]

theorem split?_append_of_derives (h : Derives text)
    (hrest : ∀ unit, rest.head? = some unit → isPart unit = false) :
    split? (text ++ rest) = some (text, rest) := by
  rw [split?, length?_append text hrest, length?_eq_length_iff.mpr h, Option.map_some,
    List.take_left, List.drop_left]

theorem length?_of_split? {taken : List α} (h : split? text = some (taken, rest)) :
    length? text = some taken.length := by
  obtain ⟨n, hn, he⟩ := Option.map_eq_some_iff.mp h
  rw [← (Prod.mk.inj he).1, List.length_take_of_le (derives_take hn).1]
  exact hn

/-- An identifier ends where it does if less of the text follows it. -/
theorem split?_append_of_cut {taken before after : List α}
    (h : split? (taken ++ (before ++ after)) = some (taken, before ++ after)) :
    split? (taken ++ before) = some (taken, before) := by
  obtain ⟨-, -, hall⟩ := length?_eq_some_iff.mp (length?_of_split? h)
  have hlen : length? (taken ++ before) = some taken.length := by
    refine length?_eq_some_iff.mpr ⟨?_, ?_, fun head hp hd => hall head (hp.trans ?_) hd⟩
    · rw [List.length_append]
      exact Nat.le_add_right ..
    · rw [List.take_left]
      exact derives_of_split? h
    · exact ⟨after, List.append_assoc ..⟩
  rw [split?, hlen, Option.map_some, List.take_left, List.drop_left]

end DomSelect.Ident
