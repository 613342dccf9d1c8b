import DomSelect.Proofs.Selector.Compiling

/-!
# The language of selectors

A selector is a sequence of pieces (`IsPiece`), however they are cut: `isSelector_iff_accepts` says
that reading each identifier as far as it goes never misses a way to go on. The reason is that an
identifier that runs into a name is an identifier again, so the name is no longer needed. This holds
for every choice of alphanumeric characters beyond ASCII.
-/

namespace DomSelect

open Scanner

variable {isAlphanumeric : Char → Bool} {text rest : List Char}
  {position : Nat} {c : Char}

/-! ## Definitions -/

/-- The texts that are read as one identifier to their end. -/
def IsIdent (text : List Char) : Prop := Ident.length? text = some text.length

/-- Characters with which the name of an element may begin: `-` and `a` to `z`. -/
def StartsName (c : Char) : Prop := c = '-' ∨ CodeUnit.between 'a' 'z' c = true

/-- The identifiers that are names of elements. -/
def IsElementName (text : List Char) : Prop :=
  IsIdent text ∧ ∃ c, text.head? = some c ∧ StartsName c

/-- The pieces of a selector: a space, a tab, or a term. -/
inductive IsPiece : List Char → Prop
  | space : IsPiece [' ']
  | tab : IsPiece ['\t']
  | any : IsPiece ['*']
  | name {name : List Char} (hn : IsElementName name) : IsPiece name
  | anyClass {ident : List Char} (hi : IsIdent ident) : IsPiece ('*' :: '.' :: ident)
  | nameClass {name ident : List Char} (hn : IsElementName name) (hi : IsIdent ident) :
      IsPiece (name ++ '.' :: ident)
  | idTerm {ident : List Char} (hi : IsIdent ident) : IsPiece ('#' :: ident)
  | classTerm {ident : List Char} (hi : IsIdent ident) : IsPiece ('.' :: ident)

/-- The selectors: pieces in a row. -/
def IsSelector (text : List Char) : Prop :=
  ∃ pieces : List (List Char), (∀ piece ∈ pieces, IsPiece piece) ∧ pieces.flatten = text

/-- The function knows the letters and digits among the ASCII characters. -/
def AgreesOnAscii (isAlphanumeric : Char → Bool) : Prop :=
  ∀ c : Char, c.toNat < 0x80 → isAlphanumeric c = c.isAlphanum

/-- Texts that are read mark by mark and identifier by identifier. -/
inductive Reads : List Char → Prop
  | nil : Reads []
  | blank {c : Char} {rest : List Char} (hc : isBlank c = true) (hr : Reads rest) :
      Reads (c :: rest)
  | any {rest : List Char} (hr : Reads rest) : Reads ('*' :: rest)
  | name {name rest : List Char} (hn : IsElementName name) (hr : Reads rest) : Reads (name ++ rest)
  | idTerm {ident rest : List Char} (hi : IsIdent ident) (hr : Reads rest) :
      Reads ('#' :: (ident ++ rest))
  | classTerm {ident rest : List Char} (hi : IsIdent ident) (hr : Reads rest) :
      Reads ('.' :: (ident ++ rest))

/-! ## Pieces and marks -/

theorem IsPiece.reads {piece : List Char} (h : IsPiece piece) (hr : Reads rest) :
    Reads (piece ++ rest) := by
  cases h with
  | space => exact .blank rfl hr
  | tab => exact .blank rfl hr
  | any => exact .any hr
  | name hn => exact .name hn hr
  | anyClass hi => exact .any (.classTerm hi hr)
  | nameClass hn hi =>
    rw [List.append_assoc]
    exact .name hn (.classTerm hi hr)
  | idTerm hi => exact .idTerm hi hr
  | classTerm hi => exact .classTerm hi hr

theorem IsSelector.append_piece {piece : List Char} (h : IsPiece piece) (hs : IsSelector rest) :
    IsSelector (piece ++ rest) := by
  obtain ⟨pieces, hp, rfl⟩ := hs
  exact ⟨piece :: pieces, List.forall_mem_cons.mpr ⟨h, hp⟩, rfl⟩

theorem isBlank_iff : isBlank c = true ↔ c = ' ' ∨ c = '\t' := by
  unfold isBlank
  rw [Bool.or_eq_true, beq_iff_eq, beq_iff_eq]

/-- A class behind a name or a `*` is a piece of its own, too. -/
theorem isSelector_iff_reads : IsSelector text ↔ Reads text := by
  constructor
  · rintro ⟨pieces, hp, rfl⟩
    induction pieces with
    | nil => exact .nil
    | cons piece pieces ih =>
      obtain ⟨hpiece, hpieces⟩ := List.forall_mem_cons.mp hp
      exact hpiece.reads (ih hpieces)
  · intro h
    induction h with
    | nil => exact ⟨[], by simp, rfl⟩
    | blank hc _ ih =>
      rcases isBlank_iff.mp hc with rfl | rfl
      · exact .append_piece .space ih
      · exact .append_piece .tab ih
    | any _ ih => exact .append_piece .any ih
    | name hn _ ih => exact .append_piece (.name hn) ih
    | idTerm hi _ ih => exact .append_piece (.idTerm hi) ih
    | classTerm hi _ ih => exact .append_piece (.classTerm hi) ih

/-! ## Characters -/

theorem is_iff {unit : Char} : CodeUnit.is c unit = true ↔ unit = c := by
  unfold CodeUnit.is
  rw [beq_iff_eq]
  exact ⟨fun h => Char.toNat_inj.mp h, fun h => h ▸ rfl⟩

theorem isIdent_iff : IsIdent text ↔ Ident.Derives text := Ident.length?_eq_length_iff

theorem isPart_of_isMark (hc : isMark c = true) : Ident.isPart c = false := by
  simp only [isMark, Bool.or_eq_true, isBlank_iff, beq_iff_eq] at hc
  rcases hc with (((rfl | rfl) | rfl) | rfl) | rfl <;> decide

theorem StartsName.isNameUnit (h : StartsName c) : Ident.isNameUnit c = true := by
  rcases h with rfl | h
  · decide
  · exact Ident.isNameUnit_of_isNameStart (by rw [Ident.isNameStart, h, Bool.or_true])

theorem StartsName.isMark (h : StartsName c) : isMark c = false := by
  rw [Bool.eq_false_iff]
  intro hm
  have := Ident.isPart_of_isNameUnit h.isNameUnit
  rw [isPart_of_isMark hm] at this
  cases this

theorem StartsName.begins (hf : AgreesOnAscii isAlphanumeric) (h : StartsName c) :
    c = '-' ∨ isAlphanumeric c = true := by
  refine h.imp_right fun h => ?_
  simp only [CodeUnit.between, CodeUnit.code, Bool.and_eq_true, decide_eq_true_eq] at h
  have hz : c.toNat ≤ 122 := h.2
  have ha : 97 ≤ c.toNat := h.1
  rw [hf c (by omega)]
  have hlower : c.isLower = true := (Bool.and_eq_true ..).mpr
    ⟨decide_eq_true ha, decide_eq_true hz⟩
  have halpha : c.isAlpha = true := (Bool.or_eq_true ..).mpr (.inr hlower)
  exact (Bool.or_eq_true ..).mpr (.inl halpha)

/-- Of the characters that begin an identifier, those that begin an element are these. -/
theorem startsName_of_derives (hf : AgreesOnAscii isAlphanumeric) (h : Ident.Derives text)
    (hc : text.head? = some c) (hn : c = '-' ∨ isAlphanumeric c = true) : StartsName c := by
  refine hn.imp_right fun hn => ?_
  obtain ⟨unit, hunit, hcases⟩ := h.head
  obtain rfl : c = unit := Option.some.inj (hc.symm.trans hunit)
  have hno : ∀ c : Char, c.toNat < 0x80 → c.isAlphanum = false → ¬ isAlphanumeric c = true := by
    intro c hlt hc
    rw [hf c hlt, hc]
    exact Bool.false_ne_true
  rcases hcases with hd | hs | hs
  · obtain rfl := is_iff.mp hd
    exact absurd hn (hno '-' (by decide) (by decide))
  · rcases (Bool.or_eq_true ..).mp hs with hu | hb
    · obtain rfl := is_iff.mp hu
      exact absurd hn (hno '_' (by decide) (by decide))
    · exact hb
  · obtain rfl := is_iff.mp hs
    exact absurd hn (hno '\\' (by decide) (by decide))

/-! ## Every selector is accepted -/

/-- A text is accepted between terms, after an element, and behind an identifier of any sort. -/
structure Accepted (isAlphanumeric : Char → Bool) (text : List Char) : Prop where
  start (position : Nat) : Accepts isAlphanumeric ⟨text, position, .start⟩
  suffix (position : Nat) : Accepts isAlphanumeric ⟨text, position, .elementSuffix⟩
  ident {ident : List Char} {state next : State} {kind : TokenKind} {expected : Expected}
    (hi : IsIdent ident) (hs : ReadsIdent state kind expected next) (position : Nat) :
    Accepts isAlphanumeric ⟨ident ++ text, position, state⟩

/-- Before a mark and at the end, identifiers end. -/
theorem Accepted.of_stop (hstop : ∀ c, text.head? = some c → isMark c = true)
    (hstart : ∀ position, Accepts isAlphanumeric ⟨text, position, .start⟩)
    (hsuffix : ∀ position, Accepts isAlphanumeric ⟨text, position, .elementSuffix⟩) :
    Accepted isAlphanumeric text := by
  refine ⟨hstart, hsuffix, fun {ident} _ _ _ _ hi hs position => ?_⟩
  refine (accepts_ident hs).mpr ⟨ident, text, ?_, ?_⟩
  · exact Ident.split?_append_of_derives (isIdent_iff.mp hi) fun c hc =>
      isPart_of_isMark (hstop c hc)
  · cases hs with
    | idName | className => exact hstart _
    | elementName => exact hsuffix _

theorem Accepted.of_mark (hc : isMark c = true) (hdot : c ≠ '.')
    (hstart : ∀ position, Accepts isAlphanumeric ⟨c :: rest, position, .start⟩) :
    Accepted isAlphanumeric (c :: rest) := by
  refine .of_stop ?_ hstart fun position => ?_
  · rintro _ ⟨⟩
    exact hc
  · rw [accepts_suffix (by simpa using hdot)]
    exact hstart position

/-- An identifier before a name is continued by it, and the name may be left out. -/
theorem Accepted.name {name : List Char} (hf : AgreesOnAscii isAlphanumeric)
    (hn : IsElementName name) (h : Accepted isAlphanumeric rest) :
    Accepted isAlphanumeric (name ++ rest) := by
  obtain ⟨hi, c, hc, hstarts⟩ := hn
  obtain ⟨others, rfl⟩ : ∃ others, name = c :: others := by
    cases name with
    | nil => cases hc
    | cons head others => exact ⟨others, by rw [Option.some.inj hc]⟩
  have hstart : ∀ position, Accepts isAlphanumeric ⟨c :: others ++ rest, position, .start⟩ := by
    intro position
    rw [List.cons_append, accepts_start_name hstarts.isMark, ← List.cons_append]
    exact ⟨hstarts.begins hf, h.ident hi .elementName position⟩
  refine ⟨hstart, fun position => ?_, fun {ident} _ _ _ _ hident hs position => ?_⟩
  · rw [accepts_suffix]
    · exact hstart position
    · rintro ⟨⟩
      exact absurd hstarts.isMark (by decide)
  · rw [← List.append_assoc]
    refine h.ident ?_ hs position
    rw [isIdent_iff] at hident hi ⊢
    exact hident.append hi

theorem Reads.accepted (hf : AgreesOnAscii isAlphanumeric) (h : Reads text) :
    Accepted isAlphanumeric text := by
  induction h with
  | nil =>
    refine .of_stop nofun accepts_start_nil fun position => ?_
    rw [accepts_suffix (by simp)]
    exact accepts_start_nil position
  | @blank c rest hc _ ih =>
    refine .of_mark ?_ ?_ fun position => (accepts_start_blank hc).mpr (ih.start _)
    · rw [isMark, hc]
      rfl
    · rintro rfl
      cases hc
  | any _ ih => exact .of_mark rfl (by decide) fun position => accepts_start_star.mpr (ih.suffix _)
  -- the one form that no mark begins: an identifier before it does not end there
  | name hn _ ih => exact ih.name hf hn
  | idTerm hi _ ih =>
    exact .of_mark rfl (by decide) fun position => accepts_start_hash.mpr (ih.ident hi .idName _)
  | classTerm hi _ ih =>
    refine .of_stop ?_ (fun position => ?_) fun position => ?_
    · rintro _ ⟨⟩
      rfl
    · exact accepts_start_dot.mpr (ih.ident hi .className _)
    · exact accepts_suffix_dot.mpr (ih.ident hi .className _)

/-! ## Nothing else is accepted -/

/-- An identifier whose first character begins an element is a name. -/
theorem isElementName_of_split? {taken left : List Char} (hf : AgreesOnAscii isAlphanumeric)
    (hn : c = '-' ∨ isAlphanumeric c = true)
    (h : Ident.split? (c :: rest) = some (taken, left)) : IsElementName taken := by
  have hderives := Ident.derives_of_split? h
  have hhead : taken.head? = some c := by
    obtain ⟨first, others, rfl⟩ := List.exists_cons_of_ne_nil hderives.ne_nil
    rw [← (List.cons.inj (Ident.split?_append h)).1]
    rfl
  exact ⟨isIdent_iff.mpr hderives, c, hhead, startsName_of_derives hf hderives hhead hn⟩

/-- What the text in front of a scanner is read as, with the mark that led to the state. -/
def ReadsFrom (isAlphanumeric : Char → Bool) (scanner : Scanner) : Prop :=
  match scanner.state with
  | .idName => Reads ('#' :: scanner.rest)
  | .className => Reads ('.' :: scanner.rest)
  | .elementName => (∃ c rest, scanner.rest = c :: rest ∧ (c = '-' ∨ isAlphanumeric c = true)) →
      Reads scanner.rest
  | _ => Reads scanner.rest

theorem readsFrom_of_accepts (hf : AgreesOnAscii isAlphanumeric) (scanner : Scanner)
    (hr : isResting scanner.state = true) :
    scanner.Accepts isAlphanumeric → ReadsFrom isAlphanumeric scanner := by
  refine stream_induction isAlphanumeric
    (motive := fun scanner => scanner.Accepts isAlphanumeric → ReadsFrom isAlphanumeric scanner)
    ?nil ?blank ?hash ?dot ?star ?name ?other ?ident ?noIdent ?suffixDot ?suffix scanner hr
  case nil => exact fun _ _ => .nil
  case blank =>
    intro c rest position hc ih ha
    exact .blank hc (ih ((accepts_start_blank hc).mp ha))
  case hash => exact fun _ _ ih ha => ih (accepts_start_hash.mp ha)
  case dot => exact fun _ _ ih ha => ih (accepts_start_dot.mp ha)
  case star => exact fun _ _ ih ha => .any (ih (accepts_start_star.mp ha))
  case name =>
    intro c rest position hc hn ih ha
    exact ih ((accepts_start_name hc).mp ha).2 ⟨c, rest, rfl, hn⟩
  case other =>
    intro c rest position hc hn ha
    exact absurd ((accepts_start_name hc).mp ha).1 hn
  case ident =>
    intro state next kind expected rest taken left position hs hsplit ih ha
    obtain ⟨_, _, hsplit', hleft⟩ := (accepts_ident hs).mp ha
    rw [hsplit] at hsplit'
    cases hsplit'
    have hi := isIdent_iff.mpr (Ident.derives_of_split? hsplit)
    have happend := Ident.split?_append hsplit
    cases hs with
    | idName =>
      subst happend
      exact .idTerm hi (ih hleft)
    | className =>
      subst happend
      exact .classTerm hi (ih hleft)
    | elementName =>
      rintro ⟨c, others, rfl, hn⟩
      rw [← happend]
      exact .name (isElementName_of_split? hf hn hsplit) (ih hleft)
  case noIdent =>
    intro state next kind expected rest position hs hsplit ha
    obtain ⟨_, _, hsplit', _⟩ := (accepts_ident hs).mp ha
    rw [hsplit] at hsplit'
    cases hsplit'
  case suffixDot => exact fun _ _ ih ha => ih (accepts_suffix_dot.mp ha)
  case suffix => exact fun _ _ hdot ih ha => ih ((accepts_suffix hdot).mp ha)

/-! ## The language -/

theorem isSelector_iff_accepts (hf : AgreesOnAscii isAlphanumeric) :
    IsSelector text ↔ Accepts isAlphanumeric ⟨text, position, .start⟩ := by
  rw [isSelector_iff_reads]
  exact ⟨fun h => (h.accepted hf).start position, readsFrom_of_accepts hf _ rfl⟩

theorem agreesOnAscii_unicode : AgreesOnAscii Unicode.isAlphanumeric := fun _ hc =>
  Unicode.isAlphanumeric_of_ascii hc

theorem exists_compileStrictWith_iff (hf : AgreesOnAscii isAlphanumeric) (selector : String) :
    (∃ chain, compileStrictWith isAlphanumeric selector = .ok chain) ↔
      IsSelector selector.toList := by
  rw [isSelector_iff_accepts hf]
  constructor
  · rintro ⟨chain, h⟩
    exact (compileStrictWith_eq_ok_iff.mp h).1
  · intro h
    exact ⟨_, compileStrictWith_eq_ok_iff.mpr ⟨h, rfl⟩⟩

/-- **The language of selectors.** A selector has a chain exactly if it is made of pieces, whichever
characters beyond ASCII count as alphanumeric. -/
theorem compileStrict_ok_iff (selector : String) :
    ((∃ chain, compileStrict selector = .ok chain) ↔ IsSelector selector.toList) ∧
      ∀ isAlphanumeric, AgreesOnAscii isAlphanumeric →
        ((∃ chain, compileStrictWith isAlphanumeric selector = .ok chain) ↔
          IsSelector selector.toList) :=
  ⟨exists_compileStrictWith_iff agreesOnAscii_unicode selector,
    fun _ hf => exists_compileStrictWith_iff hf selector⟩

/-- The escape of the id takes all letters of the name behind it, which is no reason to fail. -/
theorem compileStrict_ok_escape_before_name :
    AgreesOnAscii Char.isAlphanum ∧ IsSelector "#\\abed.x".toList ∧
      ∃ chain, compileStrictWith Char.isAlphanum "#\\abed.x" = .ok chain := by
  have hf : AgreesOnAscii Char.isAlphanum := fun _ _ => rfl
  have hid : IsPiece ['#', '\\', 'a'] := .idTerm rfl
  have hname : IsPiece (['b', 'e', 'd'] ++ '.' :: ['x']) :=
    .nameClass ⟨rfl, 'b', rfl, .inr rfl⟩ rfl
  have hs : IsSelector "#\\abed.x".toList :=
    ⟨[_, _], List.forall_mem_cons.mpr ⟨hid, List.forall_mem_singleton.mpr hname⟩, rfl⟩
  exact ⟨hf, hs, ((compileStrict_ok_iff "#\\abed.x").2 Char.isAlphanum hf).mpr hs⟩

end DomSelect
