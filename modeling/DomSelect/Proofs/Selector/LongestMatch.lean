import DomSelect.Proofs.Selector.Grammar
import Mathlib.Order.Bounds.Basic

/-!
# The longest match

`FreeDerives` is the grammar of identifiers in which every escape may be chosen at every place. The
scanner tries the fixed escape first and does not come back to it: where hexadecimal digits go on
behind the fixed escape, it reads them as name units, and a capital letter among them stops it in the
middle of the longer escape (`StopsIn`).

This is the only way in which it can miss the longest match (`FreeEscape.reads`, `readsOrStops`,
`FreeDerives.exists_length?`). An identifier is found exactly where one can be derived, what is found
can be derived, and it is the longest one exactly if the scanner was not cut short
(`stop?_isGreatest_iff`). All this holds of bytes and of characters, and an identifier is as long in
the one as in the other (`length?_utf8`).
-/

namespace DomSelect.Ident

open CodeUnit

variable {α : Type} [CodeUnit α] {text first rest esc taken head : List α} {unit slash next : α}
  {start stop : Nat} {pieces : List (List α)}

/-! ## The grammar -/

/-- A backslash with what makes it an escape: `2` or `3` and two digits, or one to six hexadecimal
digits, or a second backslash and a terminator. -/
inductive FreeEscape : List α → Prop
  | fixed {slash page tens ones : α} (hs : is '\\' slash = true)
      (hp : (is '2' page || is '3' page) = true) (ht : isDigit tens = true)
      (ho : isDigit ones = true) : FreeEscape [slash, page, tens, ones]
  | hex {slash : α} {digits : List α} (hs : is '\\' slash = true)
      (hd : ∀ digit ∈ digits, isHexDigit digit = true) (hne : digits ≠ [])
      (hlen : digits.length ≤ 6) : FreeEscape (slash :: digits)
  | double {slash second last : α} (hs : is '\\' slash = true) (h2 : is '\\' second = true)
      (hl : isTerminator last = true) : FreeEscape [slash, second, last]

/-- A piece of an identifier: a unit that is allowed at its place, or an escape. -/
inductive FreePiece (allowed : α → Bool) : List α → Prop
  | unit {unit : α} (hu : allowed unit = true) : FreePiece allowed [unit]
  | escape {esc : List α} (he : FreeEscape esc) : FreePiece allowed esc

/-- Nothing, or a `-`. -/
def OptionalDash (text : List α) : Prop := text = [] ∨ ∃ unit, text = [unit] ∧ is '-' unit = true

/-- An optional `-`, what an identifier may begin with, and any number of further pieces. -/
def FreeDerives (text : List α) : Prop :=
  ∃ dash first others, OptionalDash dash ∧ FreePiece isNameStart first ∧
    (∀ piece ∈ others, FreePiece isNameUnit piece) ∧ text = dash ++ (first ++ List.flatten others)

/-- `read` begins with a fixed escape and is the front of a longer escape, which the capital letter
`next` continues. -/
structure StopsIn (read : List α) (next : α) : Prop where
  fixed : startsFixedEscape read = true
  length_le : read.length ≤ 6
  digits : ∀ unit ∈ read.drop 1, isHexDigit unit = true
  capital : between 'A' 'F' next = true

/-- What was read ends within an escape, and `rest` goes on with it. -/
def CutShort (taken rest : List α) : Prop :=
  ∃ before read next after, (OptionalDash before ∨ FreeDerives before) ∧ StopsIn read next ∧
    taken = before ++ read ∧ rest = next :: after

/-! ## Escapes -/

theorem Escape.free (h : Escape esc) : FreeEscape esc := by
  cases h with
  | fixed hs hp ht ho => exact .fixed hs hp ht ho
  | hex hs hd hne hlen => exact .hex hs hd hne hlen
  | double hs h2 hl => exact .double hs h2 hl

/-- An escape is one that is tried at its place, or it is hidden by the fixed escape at its front. -/
theorem FreeEscape.escape_or_hidden (h : FreeEscape esc) :
    Escape esc ∨ ∃ slash page tens ones digits, esc = slash :: page :: tens :: ones :: digits ∧
      startsFixedEscape esc = true ∧ digits.length ≤ 3 ∧
      ∀ u ∈ page :: tens :: ones :: digits, isHexDigit u = true := by
  cases h with
  | fixed hs hp ht ho => exact .inl (.fixed hs hp ht ho)
  | @hex slash digits hs hd hne hlen =>
    by_cases hf : startsFixedEscape (slash :: digits) = true
    · right
      match digits, hf with
      | page :: tens :: ones :: digits, hf =>
        simp only [List.length_cons] at hlen
        exact ⟨slash, page, tens, ones, digits, rfl, hf, by omega, hd⟩
    · exact .inl (.hex hs hd hne hlen (Bool.eq_false_iff.mpr hf))
  | double hs h2 hl => exact .inl (.double hs h2 hl)

theorem FreeEscape.exists_cons (h : FreeEscape esc) :
    ∃ slash rest, esc = slash :: rest ∧ is '\\' slash = true := by
  cases h with
  | fixed hs => exact ⟨_, _, rfl, hs⟩
  | hex hs => exact ⟨_, _, rfl, hs⟩
  | double hs => exact ⟨_, _, rfl, hs⟩

theorem is_slash_of_isHexDigit (h : isHexDigit unit = true) : is '\\' unit = false := by
  rw [Bool.eq_false_iff]
  intro hs
  rw [isHexDigit_of_slash hs] at h
  cases h

theorem isHexDigit_of_capital (h : between 'A' 'F' unit = true) : isHexDigit unit = true := by
  unfold isHexDigit
  rw [h, Bool.or_true]

theorem capital_of_isHexDigit (h : isHexDigit unit = true) (hu : ¬ isNameUnit unit = true) :
    between 'A' 'F' unit = true := by
  simp only [isHexDigit, isNameUnit, isNameStart, isDigit, between, is, Bool.or_eq_true,
    Bool.and_eq_true, decide_eq_true_eq, beq_iff_eq, not_or] at h hu ⊢
  simp only [show 'a'.toNat = 97 from rfl, show 'f'.toNat = 102 from rfl,
    show 'z'.toNat = 122 from rfl] at h hu
  omega

/-- Hexadecimal digits are read to the first one that is no name unit. -/
theorem tailLength_digits {digits : List α} (hd : ∀ digit ∈ digits, isHexDigit digit = true)
    (rest : List α) :
    tailLength 0 (digits ++ rest) = digits.length + tailLength 0 rest ∨
      ∃ read next back, digits = read ++ next :: back ∧ between 'A' 'F' next = true ∧
        tailLength 0 (digits ++ rest) = read.length := by
  induction digits with
  | nil => simp
  | cons digit digits ih =>
    obtain ⟨hdigit, hdigits⟩ := List.forall_mem_cons.mp hd
    by_cases hu : isNameUnit digit = true
    · rw [List.cons_append, tailLength_unit hu]
      rcases ih hdigits with hall | ⟨read, next, back, rfl, hcapital, hstop⟩
      · left
        rw [hall, List.length_cons]
        omega
      · right
        refine ⟨digit :: read, next, back, rfl, hcapital, ?_⟩
        rw [hstop, List.length_cons]
    · right
      refine ⟨[], digit, digits, rfl, capital_of_isHexDigit hdigit hu, ?_⟩
      rw [List.cons_append, tailLength, if_neg hu,
        escapeLength_of_not_slash (is_slash_of_isHexDigit hdigit)]
      rfl

/-- Behind a fixed escape the scanner goes on as behind any piece. -/
theorem tailLength_fixed {page tens ones : α}
    (hf : startsFixedEscape (slash :: page :: tens :: ones :: rest) = true) :
    tailLength 0 (slash :: page :: tens :: ones :: rest) = 4 + tailLength 0 rest := by
  have hs : is '\\' slash = true := by
    simp only [startsFixedEscape, Bool.and_eq_true] at hf
    exact hf.1.1.1
  have hlength : escapeLength (slash :: page :: tens :: ones :: rest) = 3 + 1 := by
    rw [escapeLength, if_pos hf]
  have hpass := tailLength_append 0 [page, tens, ones] rest
  rw [tailLength_escape (isNameUnit_of_slash hs) hlength]
  simp only [List.length_cons, List.length_nil, List.cons_append, List.nil_append] at hpass
  rw [hpass]
  omega

/-- An escape is read as far as it goes, and perhaps some hexadecimal digits further, or the scanner
stops within it. -/
theorem FreeEscape.reads (h : FreeEscape esc) (rest : List α) :
    (∃ more, tailLength 0 (esc ++ rest) = esc.length + tailLength more rest ∧
      ∀ u ∈ rest.take more, isHexDigit u = true) ∨
    ∃ read next back, esc = read ++ next :: back ∧ StopsIn read next ∧
      tailLength 0 (esc ++ rest) = read.length := by
  rcases h.escape_or_hidden with he | ⟨slash, page, tens, ones, digits, rfl, hf, hlen, hd⟩
  · obtain ⟨more, hmore, hdigits⟩ := he.escapeLength_append rest
    obtain ⟨slash, others, rfl, hs⟩ := h.exists_cons
    rw [List.length_cons, Nat.add_right_comm, List.cons_append] at hmore
    refine .inl ⟨more, ?_, hdigits⟩
    rw [List.cons_append, tailLength_escape (isNameUnit_of_slash hs) hmore, tailLength_append,
      List.length_cons]
    omega
  · -- the fixed escape is read, and then the digits behind it one by one
    have hfixed := startsFixedEscape_append hf rest
    simp only [List.cons_append] at hfixed
    simp only [List.forall_mem_cons] at hd
    obtain ⟨hpage, htens, hones, hdigits⟩ := hd
    rcases tailLength_digits hdigits rest with hall | ⟨read, next, back, rfl, hcapital, hstop⟩
    · refine .inl ⟨0, ?_, by simp⟩
      simp only [List.cons_append, List.length_cons]
      rw [tailLength_fixed hfixed, hall]
      omega
    · right
      rw [List.forall_mem_append] at hdigits
      refine ⟨slash :: page :: tens :: ones :: read, next, back, rfl, ⟨hf, ?_, ?_, hcapital⟩, ?_⟩
      · simp only [List.length_append, List.length_cons] at hlen ⊢
        omega
      · simp only [List.drop_succ_cons, List.drop_zero, List.forall_mem_cons]
        exact ⟨hpage, htens, hones, hdigits.1⟩
      · simp only [List.cons_append, List.length_cons] at hfixed ⊢
        rw [tailLength_fixed hfixed, hstop]
        omega

/-! ## Pieces -/

theorem FreePiece.later (h : FreePiece isNameStart first) : FreePiece isNameUnit first := by
  cases h with
  | unit hu => exact .unit (isNameUnit_of_isNameStart hu)
  | escape he => exact .escape he

/-- Of pieces with `rest` behind them, where `pending` units belong to an escape, the scanner reads
all, or it stops within an escape. -/
def ReadsOrStops (pending : Nat) (pieces : List (List α)) (rest : List α) : Prop :=
  pieces.flatten.length ≤ tailLength pending (pieces.flatten ++ rest) ∨
  ∃ front read next back, front <+: pieces ∧ StopsIn read next ∧
    pieces.flatten = front.flatten ++ (read ++ next :: back) ∧
    tailLength pending (pieces.flatten ++ rest) = front.flatten.length + read.length

/-- One piece has been read, and then `more` units belong to an escape. -/
theorem ReadsOrStops.cons {piece : List α} {pending more : Nat} (h : ReadsOrStops more pieces rest)
    (hread : tailLength pending (piece ++ (pieces.flatten ++ rest)) =
      piece.length + tailLength more (pieces.flatten ++ rest)) :
    ReadsOrStops pending (piece :: pieces) rest := by
  unfold ReadsOrStops
  rw [List.flatten_cons, List.append_assoc, hread, List.length_append]
  rcases h with hle | ⟨front, read, next, back, hfront, hs, hsplit, hlen⟩
  · left
    omega
  · right
    refine ⟨piece :: front, read, next, back, List.cons_prefix_cons.mpr ⟨rfl, hfront⟩, hs, ?_, ?_⟩
    · rw [hsplit, List.flatten_cons, List.append_assoc]
    · rw [hlen, List.flatten_cons, List.length_append]
      omega

/-- Pieces are read to their end, from whatever hexadecimal digits of them on, or the scanner stops
within one of them. -/
theorem readsOrStops (hp : ∀ piece ∈ pieces, FreePiece isNameUnit piece) (rest : List α)
    (pending : Nat) (hd : ∀ u ∈ pieces.flatten.take pending, isHexDigit u = true) :
    ReadsOrStops pending pieces rest := by
  induction pieces generalizing pending with
  | nil => exact .inl (Nat.zero_le _)
  | cons piece pieces ih =>
    obtain ⟨hpiece, hpieces⟩ := List.forall_mem_cons.mp hp
    rw [List.flatten_cons] at hd
    cases hpiece with
    | @unit unit hu =>
      cases pending with
      | zero =>
        apply (ih hpieces 0 (by simp)).cons
        rw [List.singleton_append, tailLength_unit hu, List.length_singleton, Nat.add_comm]
      | succ pending =>
        have hmore : ∀ u ∈ pieces.flatten.take pending, isHexDigit u = true :=
          fun u hmem => hd u (List.mem_cons_of_mem unit hmem)
        apply (ih hpieces pending hmore).cons
        rw [List.singleton_append, tailLength, List.length_singleton, Nat.add_comm]
    | escape he =>
      cases pending with
      | zero =>
        rcases he.reads (pieces.flatten ++ rest) with
          ⟨more, hread, hdigits⟩ | ⟨read, next, back, hesc, hs, hlen⟩
        · have hmore : ∀ u ∈ pieces.flatten.take more, isHexDigit u = true := by
            intro u hmem
            apply hdigits
            rw [List.take_append]
            exact List.mem_append_left _ hmem
          exact (ih hpieces more hmore).cons hread
        · right
          refine ⟨[], read, next, back ++ pieces.flatten, List.nil_prefix, hs, ?_, ?_⟩
          · simp [hesc]
          · rw [List.flatten_cons, List.append_assoc, hlen]
            simp
      | succ pending =>
        -- the backslash of an escape is no hexadecimal digit
        obtain ⟨slash, others, rfl, hs⟩ := he.exists_cons
        have hslash := hd slash (by simp)
        rw [isHexDigit_of_slash hs] at hslash
        cases hslash

/-! ## Identifiers -/

theorem FreePiece.exists_cons (h : FreePiece isNameStart first) :
    ∃ unit others, first = unit :: others ∧
      (isNameStart unit = true ∨ isNameUnit unit = false) ∧ is '-' unit = false := by
  cases h with
  | unit hu => exact ⟨_, [], rfl, .inl hu, is_dash_of_isNameStart hu⟩
  | escape he =>
    obtain ⟨slash, others, rfl, hs⟩ := he.exists_cons
    exact ⟨slash, others, rfl, .inr (isNameUnit_of_slash hs), is_dash_of_slash hs⟩

theorem FreePiece.tailLength_pos (h : FreePiece isNameStart first) (rest : List α) :
    0 < tailLength 0 (first ++ rest) := by
  cases h with
  | unit hu =>
    rw [List.cons_append, tailLength_unit (isNameUnit_of_isNameStart hu)]
    omega
  | escape he =>
    rcases he.reads rest with ⟨more, hlen, -⟩ | ⟨read, next, back, -, hs, hlen⟩
    · obtain ⟨slash, others, rfl, -⟩ := he.exists_cons
      rw [hlen, List.length_cons]
      omega
    · have hread := (take_of_startsFixedEscape hs.fixed).2.1
      omega

/-- Behind an optional `-`, pieces are read from what an identifier may begin with. -/
theorem length?_dash {dash : List α} (hdash : OptionalDash dash)
    (hfirst : FreePiece isNameStart first) (rest : List α) :
    length? (dash ++ (first ++ rest)) = some (dash.length + tailLength 0 (first ++ rest)) := by
  have hpos := hfirst.tailLength_pos rest
  obtain ⟨unit, back, rfl, hstart, hno⟩ := hfirst.exists_cons
  have hbody : bodyLength? (unit :: back ++ rest) = some (tailLength 0 (unit :: back ++ rest)) := by
    refine bodyLength?_eq_some_iff.mpr ⟨rfl, by omega, ?_⟩
    rintro _ ⟨⟩
    exact hstart
  rcases hdash with rfl | ⟨dash, rfl, hdash⟩
  · rw [List.nil_append, List.length_nil, Nat.zero_add, ← hbody, List.cons_append, length?, hno]
    rfl
  · rw [List.singleton_append, length?, if_pos hdash, hbody, Option.map_some,
      List.length_singleton, Nat.add_comm]

/-- A text that begins with an identifier is read at least as far, or the scanner is cut short. -/
theorem FreeDerives.exists_length? (h : FreeDerives head) (rest : List α) :
    ∃ n, length? (head ++ rest) = some n ∧
      (head.length ≤ n ∨ CutShort ((head ++ rest).take n) ((head ++ rest).drop n)) := by
  obtain ⟨dash, first, others, hdash, hfirst, hothers, rfl⟩ := h
  have hlength : length? (dash ++ (first ++ others.flatten) ++ rest) =
      some (dash.length + tailLength 0 ((first :: others).flatten ++ rest)) := by
    rw [List.append_assoc, List.append_assoc, length?_dash hdash hfirst, List.flatten_cons,
      List.append_assoc]
  refine ⟨_, hlength, ?_⟩
  have hpieces : ∀ piece ∈ first :: others, FreePiece isNameUnit piece :=
    List.forall_mem_cons.mpr ⟨hfirst.later, hothers⟩
  rcases readsOrStops hpieces rest 0 (by simp) with
    hle | ⟨front, read, next, back, hfront, hs, hsplit, hlen⟩
  · left
    rw [List.length_append, ← List.flatten_cons]
    omega
  · right
    have hbefore : OptionalDash (dash ++ front.flatten) ∨ FreeDerives (dash ++ front.flatten) := by
      cases front with
      | nil =>
        left
        rwa [List.flatten_nil, List.append_nil]
      | cons piece front =>
        obtain ⟨rfl, hback⟩ := List.cons_prefix_cons.mp hfront
        right
        exact ⟨dash, piece, front, hdash, hfirst, fun p hp => hothers p (hback.subset hp), rfl⟩
    have htext : dash ++ (first ++ others.flatten) ++ rest =
        (dash ++ front.flatten ++ read) ++ next :: (back ++ rest) := by
      rw [List.flatten_cons] at hsplit
      rw [hsplit]
      simp
    rw [hlen, htext, ← Nat.add_assoc, ← List.length_append, ← List.length_append, List.take_left,
      List.drop_left]
    exact ⟨dash ++ front.flatten, read, next, back ++ rest, hbefore, hs, rfl, rfl⟩

/-- A derivation in which the fixed escape goes first is one. -/
theorem Pieces.free (h : Pieces text) :
    ∃ pieces, (∀ piece ∈ pieces, FreePiece isNameUnit piece) ∧ text = List.flatten pieces := by
  induction h with
  | nil => exact ⟨[], by simp, rfl⟩
  | @unit unit rest hu _ ih =>
    obtain ⟨pieces, hpieces, rfl⟩ := ih
    exact ⟨[unit] :: pieces, List.forall_mem_cons.mpr ⟨.unit hu, hpieces⟩, rfl⟩
  | @escape esc rest he _ ih =>
    obtain ⟨pieces, hpieces, rfl⟩ := ih
    exact ⟨esc :: pieces, List.forall_mem_cons.mpr ⟨.escape he.free, hpieces⟩, rfl⟩

theorem Body.free {dash : List α} (h : Body text) (hdash : OptionalDash dash) :
    FreeDerives (dash ++ text) := by
  cases h with
  | @unit unit rest hu hr =>
    obtain ⟨pieces, hpieces, rfl⟩ := hr.free
    exact ⟨dash, [unit], pieces, hdash, .unit hu, hpieces, rfl⟩
  | @escape esc rest he hr =>
    obtain ⟨pieces, hpieces, rfl⟩ := hr.free
    exact ⟨dash, esc, pieces, hdash, .escape he.free, hpieces, rfl⟩

theorem Derives.free (h : Derives text) : FreeDerives text := by
  cases h with
  | plain hb => exact hb.free (.inl rfl : OptionalDash [])
  | @dashed dash body hd hb => exact hb.free (.inr ⟨dash, rfl, hd⟩ : OptionalDash [dash])

/-- Behind what may stand in front of it, an escape makes an identifier. -/
theorem FreeEscape.derives {before : List α} (h : FreeEscape esc)
    (hbefore : OptionalDash before ∨ FreeDerives before) : FreeDerives (before ++ esc) := by
  rcases hbefore with hdash | ⟨dash, first, others, hdash, hfirst, hothers, rfl⟩
  · exact ⟨before, esc, [], hdash, .escape h, by simp, by simp⟩
  · refine ⟨dash, first, others ++ [esc], hdash, hfirst, ?_, by simp⟩
    exact List.forall_mem_append.mpr ⟨hothers, by simpa using .escape h⟩

/-- The unit that stopped the scanner belongs to the longer escape. -/
theorem StopsIn.escape {read : List α} (h : StopsIn read next) : FreeEscape (read ++ [next]) := by
  obtain ⟨hfixed, hlen, hdigits, hcapital⟩ := h
  unfold startsFixedEscape at hfixed
  split at hfixed
  · next slash page tens ones back =>
    simp only [Bool.and_eq_true] at hfixed
    simp only [List.length_cons] at hlen
    rw [List.cons_append]
    refine .hex hfixed.1.1.1 ?_ (by simp) ?_
    · intro digit hmem
      rcases List.mem_append.mp hmem with hback | hlast
      · exact hdigits digit hback
      · rw [List.mem_singleton.mp hlast]
        exact isHexDigit_of_capital hcapital
    · simp only [List.length_append, List.length_cons, List.length_nil]
      omega
  · cases hfixed

/-- Where the scanner is cut short, a longer identifier stands. -/
theorem CutShort.exists_longer {rest : List α} (h : CutShort taken rest) :
    ∃ next after, rest = next :: after ∧ FreeDerives (taken ++ [next]) := by
  obtain ⟨before, read, next, after, hbefore, hs, rfl, rfl⟩ := h
  refine ⟨next, after, rfl, ?_⟩
  rw [List.append_assoc]
  exact hs.escape.derives hbefore

theorem FreeDerives.ne_nil (h : FreeDerives head) : head ≠ [] := by
  obtain ⟨dash, first, others, -, hfirst, -, rfl⟩ := h
  obtain ⟨unit, back, rfl, -⟩ := hfirst.exists_cons
  simp

/-! ## Characters and bytes -/

section

variable {β : Type} [CodeUnit β] {recode : α → β}

theorem is_recode (hr : ∀ unit, code (recode unit) = code unit) (c : Char) (unit : α) :
    is c (recode unit) = is c unit := by
  unfold is
  rw [hr]

theorem between_recode (hr : ∀ unit, code (recode unit) = code unit) (lo hi : Char) (unit : α) :
    between lo hi (recode unit) = between lo hi unit := by
  unfold between
  rw [hr]

theorem startsFixedEscape_recode (hr : ∀ unit, code (recode unit) = code unit) (text : List α) :
    startsFixedEscape (text.map recode) = startsFixedEscape text := by
  rcases text with _ | ⟨slash, _ | ⟨page, _ | ⟨tens, _ | ⟨ones, rest⟩⟩⟩⟩
  iterate 4 rfl
  simp only [List.map_cons, startsFixedEscape, isDigit, is_recode hr, between_recode hr]

theorem startsDoubleEscape_recode (hr : ∀ unit, code (recode unit) = code unit) (text : List α) :
    startsDoubleEscape (text.map recode) = startsDoubleEscape text := by
  rcases text with _ | ⟨slash, _ | ⟨second, _ | ⟨last, rest⟩⟩⟩
  iterate 3 rfl
  simp only [List.map_cons, startsDoubleEscape, isTerminator, isDigit, is_recode hr,
    between_recode hr]

theorem hexEscapeDigits_recode (hr : ∀ unit, code (recode unit) = code unit) (text : List α) :
    hexEscapeDigits (text.map recode) = hexEscapeDigits text := by
  have hdigit : isHexDigit ∘ recode = isHexDigit := by
    funext unit
    simp only [Function.comp_apply, isHexDigit, isDigit, between_recode hr]
  cases text with
  | nil => rfl
  | cons slash rest =>
    rw [List.map_cons, hexEscapeDigits, hexEscapeDigits, is_recode hr, ← List.map_take,
      List.takeWhile_map, hdigit, List.length_map]

theorem escapeLength_recode (hr : ∀ unit, code (recode unit) = code unit) (text : List α) :
    escapeLength (text.map recode) = escapeLength text := by
  rw [escapeLength, escapeLength, startsFixedEscape_recode hr, hexEscapeDigits_recode hr,
    startsDoubleEscape_recode hr]

theorem isNameStart_recode (hr : ∀ unit, code (recode unit) = code unit) (unit : α) :
    isNameStart (recode unit) = isNameStart unit := by
  rw [isNameStart, isNameStart, is_recode hr, between_recode hr]

theorem tailLength_recode (hr : ∀ unit, code (recode unit) = code unit) (pending : Nat)
    (text : List α) : tailLength pending (text.map recode) = tailLength pending text := by
  induction text generalizing pending with
  | nil => rfl
  | cons unit rest ih =>
    cases pending with
    | zero =>
      have hunit : isNameUnit (recode unit) = isNameUnit unit := by
        simp only [isNameUnit, isDigit, isNameStart_recode hr, is_recode hr, between_recode hr]
      have hescape := escapeLength_recode hr (unit :: rest)
      rw [List.map_cons] at hescape ⊢
      rw [tailLength, tailLength, hunit, hescape]
      simp only [ih]
    | succ pending => rw [List.map_cons, tailLength, tailLength, ih]

/-- Only the codes of the units matter. -/
theorem length?_recode (hr : ∀ unit, code (recode unit) = code unit) (text : List α) :
    length? (text.map recode) = length? text := by
  have hbody : ∀ body : List α, bodyLength? (body.map recode) = bodyLength? body := by
    intro body
    cases body with
    | nil => rfl
    | cons unit rest =>
      have hescape := escapeLength_recode hr (unit :: rest)
      rw [List.map_cons] at hescape ⊢
      rw [bodyLength?, bodyLength?, isNameStart_recode hr, hescape]
      simp only [tailLength_recode hr]
  cases text with
  | nil => rfl
  | cons unit rest =>
    have hwhole := hbody (unit :: rest)
    rw [List.map_cons] at hwhole ⊢
    rw [length?, length?, is_recode hr, hbody, hwhole]

end

theorem isPart_of_le (h : 128 ≤ code unit) : isPart unit = false := by
  rw [Bool.eq_false_iff]
  intro hpart
  simp only [isPart, isNameUnit, isNameStart, isTerminator, isHexDigit, isDigit, between, is,
    Bool.or_eq_true, Bool.and_eq_true, decide_eq_true_eq, beq_iff_eq] at hpart
  have : (['_', '-', '\\', '\r', '\n', '\x0c', '9', 'f', 'F', 'z'].all (·.toNat < 128)) = true := by
    decide
  simp only [List.all_cons, Bool.and_eq_true, decide_eq_true_eq] at this
  omega

/-- A character beyond 127 begins with a byte beyond 127. -/
theorem le_code_of_utf8 {c : Char} (hc : 128 ≤ c.toNat) {byte : UInt8}
    (h : (String.utf8EncodeChar c).head? = some byte) : 128 ≤ code byte := by
  have hc' : ¬ c.val.toNat ≤ 127 := Nat.not_le_of_lt hc
  show 128 ≤ byte.toNat
  unfold String.utf8EncodeChar at h
  simp only [if_neg hc'] at h
  -- the lead byte of two, three or four
  split_ifs at h <;>
  · obtain rfl := Option.some.inj h
    rw [UInt8.toNat_ofNat']
    omega

theorem map_utf8_of_ascii {c : Char} (hc : c.toNat < 128) :
    (String.utf8EncodeChar c).map Char.ofUInt8 = [c] := by
  have hc' : c.val.toNat < 128 := hc
  unfold String.utf8EncodeChar
  simp only [if_pos (Nat.le_of_lt_succ hc'), List.map_singleton, List.cons.injEq, and_true]
  apply Char.ext
  apply UInt32.toNat_inj.mp
  show (UInt8.ofNat c.val.toNat).toUInt32.toNat = c.val.toNat
  rw [UInt8.toNat_toUInt32, UInt8.toNat_ofNat']
  omega

/-- **An identifier in front of a text is as long in its bytes as in its characters.** -/
theorem length?_utf8 (text : List Char) :
    length? (text.flatMap String.utf8EncodeChar) = length? text := by
  -- the characters of one byte each in front, and the first one of several bytes, which ends them
  obtain ⟨front, back, rfl, hfront, hback⟩ : ∃ front back : List Char, text = front ++ back ∧
      (∀ c ∈ front, c.toNat < 128) ∧ ∀ c, back.head? = some c → 128 ≤ c.toNat := by
    have hsplit : text.takeWhile (·.toNat < 128) ++ text.dropWhile (·.toNat < 128) = text :=
      List.takeWhile_append_dropWhile
    refine ⟨_, _, hsplit.symm, ?_, ?_⟩
    · intro c hc
      have hascii := List.mem_takeWhile_imp hc
      exact of_decide_eq_true hascii
    · intro c hc
      have hwide := List.head?_dropWhile_not (·.toNat < 128) text
      rw [hc] at hwide
      simpa using hwide
  have hcode : ∀ byte, code (Char.ofUInt8 byte) = code byte := UInt8.toNat_toUInt32
  have hbytes : (front.flatMap String.utf8EncodeChar).map Char.ofUInt8 = front := by
    induction front with
    | nil => rfl
    | cons c front ih =>
      obtain ⟨hc, hfront⟩ := List.forall_mem_cons.mp hfront
      rw [List.flatMap_cons, List.map_append, map_utf8_of_ascii hc, ih hfront]
      rfl
  calc length? ((front ++ back).flatMap String.utf8EncodeChar)
    _ = length? (front.flatMap String.utf8EncodeChar) := by
      rw [List.flatMap_append]
      refine length?_append _ fun byte hbyte => ?_
      cases back with
      | nil => cases hbyte
      | cons c back =>
        obtain ⟨lead, others, hcons⟩ :=
          List.exists_cons_of_ne_nil (String.utf8EncodeChar_ne_nil (c := c))
        rw [List.flatMap_cons, hcons] at hbyte
        obtain rfl : lead = byte := Option.some.inj hbyte
        exact isPart_of_le (le_code_of_utf8 (hback c rfl) (by rw [hcons]; rfl))
    _ = length? front := by
      rw [← length?_recode hcode, hbytes]
    _ = length? (front ++ back) := by
      refine (length?_append front fun c hc => ?_).symm
      exact isPart_of_le (hback c hc)

/-! ## Places in a text -/

/-- Where the identifier that the scanner finds at `start` stops. -/
def stop? (text : List α) (start : Nat) : Option Nat :=
  (length? (text.drop start)).map (start + ·)

/-- An identifier stands in `text` from `start` to `stop`. -/
def Spans (text : List α) (start stop : Nat) : Prop :=
  start ≤ stop ∧ stop ≤ text.length ∧ FreeDerives (text.extract start stop)

theorem stop?_eq_some_iff :
    stop? text start = some stop ↔ ∃ n, length? (text.drop start) = some n ∧ start + n = stop :=
  Option.map_eq_some_iff

theorem spans_iff : Spans text start stop ↔
    ∃ head, head <+: text.drop start ∧ FreeDerives head ∧ start + head.length = stop := by
  constructor
  · rintro ⟨hle, hstop, hderives⟩
    refine ⟨_, List.take_prefix .., hderives, ?_⟩
    rw [List.length_take, List.length_drop]
    omega
  · rintro ⟨head, hprefix, hderives, rfl⟩
    have hlength := hprefix.length_le
    have hpos := List.length_pos_iff.mpr hderives.ne_nil
    rw [List.length_drop] at hlength
    refine ⟨by omega, by omega, ?_⟩
    rwa [List.extract_eq_take_drop, Nat.add_sub_cancel_left, ← List.prefix_iff_eq_take.mp hprefix]

/-- What is found is an identifier. -/
theorem spans_of_stop? (h : stop? text start = some stop) : Spans text start stop := by
  obtain ⟨n, hn, rfl⟩ := stop?_eq_some_iff.mp h
  obtain ⟨hle, hderives⟩ := derives_take hn
  refine spans_iff.mpr ⟨_, List.take_prefix .., hderives.free, ?_⟩
  rw [List.length_take_of_le hle]

/-- Where an identifier stands, one is found, as long as that or cut short. -/
theorem Spans.exists_stop? (h : Spans text start stop) : ∃ found, stop? text start = some found ∧
    (stop ≤ found ∨ CutShort (text.extract start found) (text.drop found)) := by
  obtain ⟨head, ⟨rest, hrest⟩, hderives, rfl⟩ := spans_iff.mp h
  obtain ⟨n, hn, hreads⟩ := hderives.exists_length? rest
  rw [hrest] at hn hreads
  refine ⟨start + n, stop?_eq_some_iff.mpr ⟨n, hn, rfl⟩, ?_⟩
  rw [List.extract_eq_take_drop, Nat.add_sub_cancel_left, ← List.drop_drop]
  exact hreads.imp_left (Nat.add_le_add_left · start)

/-- Where the scanner is cut short, a longer identifier stands. -/
theorem exists_spans_of_cutShort (h : stop? text start = some stop)
    (hcut : CutShort (text.extract start stop) (text.drop stop)) : Spans text start (stop + 1) := by
  obtain ⟨n, hn, rfl⟩ := stop?_eq_some_iff.mp h
  obtain ⟨hle, -⟩ := derives_take hn
  rw [List.extract_eq_take_drop, Nat.add_sub_cancel_left, ← List.drop_drop] at hcut
  obtain ⟨next, after, hafter, hderives⟩ := hcut.exists_longer
  refine spans_iff.mpr ⟨_, ⟨after, ?_⟩, hderives, ?_⟩
  · rw [List.append_assoc, List.singleton_append, ← hafter, List.take_append_drop]
  · rw [List.length_append, List.length_take_of_le hle, List.length_singleton, Nat.add_assoc]

/-- **The scanner finds the longest identifier, unless it is cut short.** -/
theorem stop?_isGreatest_iff (text : List α) (start : Nat) :
    (stop? text start = none ↔ ∀ stop, ¬ Spans text start stop) ∧
    (∀ stop, stop? text start = some stop → Spans text start stop) ∧
    ((∀ stop, stop? text start = some stop ↔ IsGreatest {stop | Spans text start stop} stop) ↔
      ∀ stop, stop? text start = some stop →
        ¬ CutShort (text.extract start stop) (text.drop stop)) := by
  refine ⟨?_, fun stop => spans_of_stop?, ?_, ?_⟩
  · constructor
    · intro hnone stop hspans
      obtain ⟨found, hfound, -⟩ := hspans.exists_stop?
      rw [hnone] at hfound
      cases hfound
    · intro hnone
      cases hstop : stop? text start with
      | none => rfl
      | some stop => exact absurd (spans_of_stop? hstop) (hnone stop)
  · intro hlongest stop hstop hcut
    have hle : stop + 1 ≤ stop := ((hlongest stop).mp hstop).2 (exists_spans_of_cutShort hstop hcut)
    omega
  · intro hno stop
    have hupper : ∀ found, stop? text start = some found → ∀ other, Spans text start other →
        other ≤ found := by
      intro found hfound other hother
      obtain ⟨found', hfound', hle⟩ := hother.exists_stop?
      obtain rfl : found = found' := Option.some.inj (hfound.symm.trans hfound')
      exact hle.resolve_right (hno found hfound)
    constructor
    · intro hstop
      exact ⟨spans_of_stop? hstop, hupper stop hstop⟩
    · rintro ⟨hspans, hgreatest⟩
      obtain ⟨found, hfound, -⟩ := hspans.exists_stop?
      have hle : found ≤ stop := hgreatest (spans_of_stop? hfound)
      have hge : stop ≤ found := hupper found hfound stop hspans
      rw [hfound, Nat.le_antisymm hle hge]

/-- A fixed escape with a capital letter behind it: the identifier is the whole text, and the scanner
stops in front of the letter. -/
theorem exists_longer_than_stop? : ¬ ∀ (text : List UInt8) (start stop : Nat), start ≤ text.length →
    (stop? text start = some stop ↔ IsGreatest {stop | Spans text start stop} stop) := by
  intro hlongest
  have hstop : stop? ([92, 50, 48, 48, 65] : List UInt8) 0 = some 4 := rfl
  have hspans : Spans ([92, 50, 48, 48, 65] : List UInt8) 0 5 := by
    refine ⟨by decide, by decide, [], [92, 50, 48, 48, 65], [], .inl rfl, .escape ?_, by simp, rfl⟩
    exact .hex rfl (List.all_eq_true.mp rfl) (by simp) (by decide)
  have hle : 5 ≤ 4 := ((hlongest _ 0 4 (by decide)).mp hstop).2 hspans
  omega

end DomSelect.Ident
