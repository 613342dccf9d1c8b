import DomSelect.Proofs.Selector.Stream

/-!
# Tokens tile the selector

The tokens of a selector lie in it one behind the other, each with its text at its position, and
between them there are blanks only (`tokenize_tiles`). Positions count bytes.

The proof speaks of characters: `Tiled` lays tokens out in the characters that a scanner has in
front of it, which goes along the stream of tokens (`tiled_tokens`). Byte positions are then sums of
widths (`bytesOf_width`).
-/

namespace DomSelect

/-! ## Places in bytes -/

/-- The byte position behind a token. -/
def Token.stop (token : Token) : Nat := token.position + token.text.utf8ByteSize

/-- The byte position behind the last of some tokens, 0 if there are none. -/
def endOf (tokens : List Token) : Nat := (tokens.getLast?.map Token.stop).getD 0

/-- The bytes of a text from one position up to another. -/
def bytesOf (text : String) (start stop : Nat) : ByteArray := text.toByteArray.extract start stop

/-- Tokens of these kinds go on with a term. -/
def TokenKind.continues : TokenKind → Bool
  | classPrefix | className | id => true
  | _ => false

/-- After a token of this kind an identifier must come. -/
def awaitsIdent (previous : Option TokenKind) : Bool :=
  previous == some .idPrefix || previous == some .classPrefix

/-- Between a token of the kind `previous` and the next one, of the kind `kind`, there is nothing:
the parts of a term stand close together. -/
def abuts (previous : Option TokenKind) (kind : TokenKind) : Bool :=
  kind.continues || kind == .error && awaitsIdent previous

/-- Where a token stands in its selector, given the tokens before it. -/
structure Placed (selector : String) (before : List Token) (token : Token) : Prop where
  /-- The text of the token is that of the selector at its position. -/
  text : token.kind ≠ .error → token.stop ≤ selector.utf8ByteSize ∧
    bytesOf selector token.position token.stop = token.text.toByteArray
  /-- The token comes behind the one before it. -/
  order : endOf before ≤ token.position
  /-- There are spaces and tabs between them, or nothing. -/
  gap : ∃ blanks : String, (∀ c ∈ blanks.toList, c = ' ' ∨ c = '\t') ∧
    bytesOf selector (endOf before) token.position = blanks.toByteArray
  /-- There is nothing between the parts of a term. -/
  close : abuts (before.getLast?.map (·.kind)) token.kind = true →
    token.position = endOf before
  /-- The end of the input is where it is said to be. -/
  endOfInput : token.kind = .endOfInput → token.position = selector.utf8ByteSize
  /-- An error is before a character or at the end. -/
  error : token.kind = .error → String.Pos.Raw.IsValid selector ⟨token.position⟩

/-- The bytes of the middle one of three parts of a text. -/
theorem bytesOf_width {selector : String} {left middle right : List Char}
    (h : selector.toList = left ++ middle ++ right) :
    bytesOf selector (utf8Width left) (utf8Width left + utf8Width middle) =
      (String.ofList middle).toByteArray := by
  have hs : selector = String.ofList left ++ String.ofList middle ++ String.ofList right := by
    rw [← String.ofList_append, ← String.ofList_append, ← h, String.ofList_toList]
  have hsize : ∀ part : List Char, (String.ofList part).toByteArray.size = utf8Width part := by
    intro part
    rw [String.size_toByteArray, ← utf8Width_toList, String.toList_ofList]
  rw [bytesOf, hs, String.toByteArray_append, String.toByteArray_append, ByteArray.append_assoc,
    ByteArray.extract_append, hsize]
  rw [ByteArray.extract_eq_empty_iff.mpr (by rw [hsize]; omega), ByteArray.empty_append]
  rw [Nat.sub_self, Nat.add_sub_cancel_left]
  exact ByteArray.extract_append_eq_left (hsize middle).symm

theorem isValid_width {selector : String} {left right : List Char}
    (h : selector.toList = left ++ right) :
    String.Pos.Raw.IsValid selector ⟨utf8Width left⟩ := by
  refine String.Pos.Raw.isValid_iff_exists_append.mpr
    ⟨String.ofList left, String.ofList right, ?_, ?_⟩
  · rw [← String.ofList_append, ← h, String.ofList_toList]
  · rw [String.rawEndPos, ← utf8Width_toList, String.toList_ofList]

/-! ## Tokens in a row of characters -/

/-- Tokens laid out in `text`, which begins at a byte position behind a token of the kind
`previous`, `none` if blanks are in between or nothing comes before. -/
inductive Tiled : Option TokenKind → List Char → Nat → List Token → Prop
  | endOfInput (previous : Option TokenKind) (position : Nat) :
      Tiled previous [] position [⟨.endOfInput, "", position⟩]
  | error (previous : Option TokenKind) (text : List Char) (position : Nat) (expected : String) :
      Tiled previous text position [⟨.error, expected, position⟩]
  | blank {previous : Option TokenKind} {c : Char} {rest : List Char} {position : Nat}
      {tokens : List Token} (hp : awaitsIdent previous = false) (hc : Scanner.isBlank c = true)
      (hr : Tiled none rest (position + c.utf8Size) tokens) :
      Tiled previous (c :: rest) position tokens
  | token {previous : Option TokenKind} (taken : List Char) {rest : List Char} {position : Nat}
      {kind : TokenKind} {tokens : List Token} (hp : kind.continues = true → previous.isSome = true)
      (hk : kind.isTerminal = false) (hc : ∀ c ∈ taken, c.toNat < 128)
      (hr : Tiled (some kind) rest (position + utf8Width taken) tokens) :
      Tiled previous (taken ++ rest) position (⟨kind, String.ofList taken, position⟩ :: tokens)

namespace Scanner

/-- The kinds of token that can come right before a state. -/
def ComesBefore (previous : Option TokenKind) : State → Prop
  | .idName | .className => awaitsIdent previous = true
  | .elementSuffix => previous.isSome = true ∧ awaitsIdent previous = false
  | _ => awaitsIdent previous = false

variable {state next : State} {kind : TokenKind} {expected : Expected}
  {previous : Option TokenKind}

theorem ReadsIdent.comesBefore (h : ReadsIdent state kind expected next) :
    ComesBefore (some kind) next := by
  cases h with
  | idName | className => exact rfl
  | elementName => exact ⟨rfl, rfl⟩

theorem ReadsIdent.not_isTerminal (h : ReadsIdent state kind expected next) :
    kind.isTerminal = false := by
  cases h <;> rfl

/-- An id and a class name come behind their mark. -/
theorem ReadsIdent.isSome_of_comesBefore (h : ReadsIdent state kind expected next)
    (hp : ComesBefore previous state) (hk : kind.continues = true) : previous.isSome = true := by
  cases previous with
  | some _ => rfl
  | none =>
    cases h with
    | idName | className => cases hp
    | elementName => cases hk

theorem lt_of_isPart {c : Char} (h : Ident.isPart c = true) : c.toNat < 128 := by
  simp only [Ident.isPart, Ident.isNameUnit, Ident.isNameStart, Ident.isTerminator,
    CodeUnit.isHexDigit, CodeUnit.isDigit, CodeUnit.is, CodeUnit.between, CodeUnit.code,
    Bool.or_eq_true, Bool.and_eq_true, beq_iff_eq, decide_eq_true_eq, Char.reduceToNat] at h
  omega

/-- What a scanner emits is laid out in what it has in front of it. -/
theorem tiled_tokens (isAlphanumeric : Char → Bool) (scanner : Scanner)
    (hr : isResting scanner.state = true) :
    ∀ previous, ComesBefore previous scanner.state →
      Tiled previous scanner.rest scanner.position (scanner.tokens isAlphanumeric) := by
  refine stream_induction isAlphanumeric
    (motive := fun scanner => ∀ previous, ComesBefore previous scanner.state →
      Tiled previous scanner.rest scanner.position (scanner.tokens isAlphanumeric))
    ?nil ?blank ?hash ?dot ?star ?name ?other ?ident ?noIdent ?suffixDot ?suffix scanner hr
  case nil =>
    intro position previous _
    rw [tokens_start_nil]
    exact .endOfInput ..
  case blank =>
    intro c rest position hc ih previous hp
    rw [tokens_start_blank hc]
    exact .blank hp hc (ih none rfl)
  case hash =>
    intro rest position ih previous _
    rw [tokens_start_hash]
    exact .token ['#'] nofun rfl (List.forall_mem_singleton.mpr (by decide)) (ih _ rfl)
  case dot =>
    intro rest position ih previous _
    rw [tokens_start_dot]
    exact .token [] nofun rfl (List.forall_mem_nil _)
      (.token ['.'] (fun _ => rfl) rfl (List.forall_mem_singleton.mpr (by decide)) (ih _ rfl))
  case star =>
    intro rest position ih previous _
    rw [tokens_start_star]
    exact .token ['*'] nofun rfl (List.forall_mem_singleton.mpr (by decide)) (ih _ ⟨rfl, rfl⟩)
  case name =>
    intro c rest position hc hn ih previous hp
    rw [tokens_start_name hc hn]
    exact ih previous hp
  case other =>
    intro c rest position hc hn previous _
    rw [tokens_start_other hc hn]
    exact .error ..
  case ident =>
    intro state next kind expected rest taken left position hs hsplit ih previous hp
    have hpart := (Ident.derives_of_split? hsplit).pieces.isPart_of_mem
    rw [tokens_ident hs hsplit, ← Ident.split?_append hsplit]
    exact .token taken (hs.isSome_of_comesBefore hp) hs.not_isTerminal
      (fun c hc => lt_of_isPart (hpart c hc)) (ih _ hs.comesBefore)
  case noIdent =>
    intro state next kind expected rest position hs hsplit previous _
    rw [tokens_no_ident hs hsplit]
    exact .error ..
  case suffixDot =>
    intro rest position ih previous hp
    rw [tokens_suffix_dot]
    exact .token ['.'] (fun _ => hp.1) rfl (List.forall_mem_singleton.mpr (by decide)) (ih _ rfl)
  case suffix =>
    intro rest position hdot ih previous hp
    rw [tokens_suffix hdot]
    exact ih previous hp.2

end Scanner

/-! ## From characters to bytes -/

section Bytes

variable {selector : String} {previous : Option TokenKind} {read blanks text : List Char}
  {position : Nat} {before tokens : List Token}

/-- What has been passed of a selector: some tokens and the blanks behind them. -/
structure Passed (selector : String) (before : List Token) (previous : Option TokenKind)
    (read blanks text : List Char) : Prop where
  /-- The characters passed, and those to come. -/
  split : selector.toList = read ++ blanks ++ text
  /-- The tokens end where the blanks begin. -/
  tokens : endOf before = utf8Width read
  /-- The blanks are blanks. -/
  blank : ∀ c ∈ blanks, Scanner.isBlank c = true
  /-- The kind of the token right before, or blanks where no identifier is awaited. -/
  kind : previous = before.getLast?.map (·.kind) ∧ blanks = [] ∨
    previous = none ∧ awaitsIdent (before.getLast?.map (·.kind)) = false

namespace Passed

/-- A token that stands at the first character to come is well placed. -/
theorem placed (h : Passed selector before previous read blanks text) {token : Token}
    (taken rest : List Char) (htext : text = taken ++ rest)
    (hposition : token.position = utf8Width (read ++ blanks))
    (ht : token.kind ≠ .error → token.text = String.ofList taken)
    (hp : token.kind.continues = true → previous.isSome = true)
    (he : token.kind = .endOfInput → text = []) : Placed selector before token where
  text hk := by
    have hsplit : selector.toList = (read ++ blanks) ++ taken ++ rest := by
      rw [h.split, htext, List.append_assoc _ taken]
    have hsize : token.text.utf8ByteSize = utf8Width taken := by
      rw [ht hk, ← utf8Width_toList, String.toList_ofList]
    constructor
    · rw [Token.stop, hposition, hsize, ← utf8Width_toList, hsplit, utf8Width_append _ rest,
        utf8Width_append _ taken]
      exact Nat.le_add_right ..
    · rw [Token.stop, hposition, hsize, bytesOf_width hsplit, ht hk]
  order := by
    rw [h.tokens, hposition, utf8Width_append]
    exact Nat.le_add_right ..
  gap := by
    refine ⟨String.ofList blanks, fun c hc => ?_, ?_⟩
    · rw [String.toList_ofList] at hc
      simpa [Scanner.isBlank] using h.blank c hc
    · rw [h.tokens, hposition, utf8Width_append]
      exact bytesOf_width h.split
  close ha := by
    have hnil : blanks = [] := by
      rcases h.kind with ⟨_, hnil⟩ | ⟨hnone, hawaits⟩
      · exact hnil
      · rw [abuts, hawaits, Bool.and_false, Bool.or_false] at ha
        have := hp ha
        rw [hnone] at this
        cases this
    rw [hposition, h.tokens, hnil, List.append_nil]
  endOfInput hk := by
    rw [hposition, ← utf8Width_toList, h.split, he hk, List.append_nil]
  error _ := by
    rw [hposition]
    exact isValid_width h.split

theorem skip {c : Char} {rest : List Char}
    (h : Passed selector before previous read blanks (c :: rest))
    (hp : awaitsIdent previous = false) (hc : Scanner.isBlank c = true) :
    Passed selector before none read (blanks ++ [c]) rest where
  split := by rw [h.split, ← List.append_assoc read, List.append_assoc _ [c]]; rfl
  tokens := h.tokens
  blank := List.forall_mem_append.mpr ⟨h.blank, List.forall_mem_singleton.mpr hc⟩
  kind := by
    refine .inr ⟨rfl, ?_⟩
    rcases h.kind with ⟨hkind, _⟩ | ⟨_, hawaits⟩
    · rw [← hkind, hp]
    · exact hawaits

theorem take {taken rest : List Char} (kind : TokenKind)
    (h : Passed selector before previous read blanks (taken ++ rest)) :
    Passed selector (before ++ [⟨kind, String.ofList taken, utf8Width (read ++ blanks)⟩])
      (some kind) (read ++ blanks ++ taken) [] rest where
  split := by rw [h.split, List.append_nil, List.append_assoc _ taken]
  tokens := by
    rw [endOf, List.getLast?_concat, Option.map_some, Option.getD_some, Token.stop,
      ← utf8Width_toList, String.toList_ofList, utf8Width_append _ taken]
  blank := by simp
  kind := .inl ⟨by rw [List.getLast?_concat, Option.map_some], rfl⟩

end Passed

/-- Tokens laid out in what is left of a selector are well placed in the whole of it. -/
theorem Tiled.placed (h : Tiled previous text position tokens)
    (hp : Passed selector before previous read blanks text)
    (hposition : position = utf8Width (read ++ blanks)) {middle after : List Token} {token : Token}
    (hsplit : tokens = middle ++ token :: after) : Placed selector (before ++ middle) token := by
  induction h generalizing read blanks before middle with
  | endOfInput previous position =>
    obtain ⟨rfl, hlast⟩ | ⟨_, hnil⟩ := List.singleton_eq_append_iff.mp hsplit
    · obtain ⟨rfl, rfl⟩ := List.cons.inj hlast
      rw [List.append_nil]
      exact hp.placed [] [] rfl hposition (fun _ => rfl) nofun fun _ => rfl
    · cases hnil
  | error previous text position expected =>
    obtain ⟨rfl, hlast⟩ | ⟨_, hnil⟩ := List.singleton_eq_append_iff.mp hsplit
    · obtain ⟨rfl, rfl⟩ := List.cons.inj hlast
      rw [List.append_nil]
      exact hp.placed [] text rfl hposition (fun he => absurd rfl he) nofun nofun
    · cases hnil
  | blank hawaits hc _ ih =>
    refine ih (hp.skip hawaits hc) ?_ hsplit
    rw [hposition, ← List.append_assoc, utf8Width_append _ [_], utf8Width_cons, utf8Width_nil]
    rfl
  | @token previous taken rest position kind tokens hkind hterminal _ _ ih =>
    subst hposition
    cases middle with
    | nil =>
      obtain ⟨rfl, rfl⟩ := List.cons.inj hsplit
      rw [List.append_nil]
      refine hp.placed taken rest rfl rfl (fun _ => rfl) hkind fun he => ?_
      subst he
      cases hterminal
    | cons first middle =>
      obtain ⟨rfl, hrest⟩ := List.cons.inj hsplit
      have := ih (hp.take kind) (by rw [List.append_nil, utf8Width_append _ taken]) hrest
      rwa [List.append_assoc] at this

theorem isTerminal_iff {token : Token} :
    token.isTerminal = true ↔ token.kind = .endOfInput ∨ token.kind = .error := by
  unfold Token.isTerminal
  cases token.kind <;> decide

/-- The last token is the terminal one, and what comes before it in the text is ASCII. -/
theorem Tiled.exists_last (h : Tiled previous text position tokens) :
    ∃ front last ascii rest, tokens = front ++ [last] ∧ last.isTerminal = true ∧
      (∀ token ∈ front, token.isTerminal = false) ∧ text = ascii ++ rest ∧
      (∀ c ∈ ascii, c.toNat < 128) ∧ last.position = position + utf8Width ascii ∧
      (last.kind = .endOfInput → rest = []) := by
  induction h with
  | endOfInput previous position =>
    exact ⟨[], _, [], [], rfl, rfl, by simp, rfl, by simp, rfl, fun _ => rfl⟩
  | error previous text position expected =>
    exact ⟨[], _, [], text, rfl, rfl, by simp, rfl, by simp, rfl, nofun⟩
  | @blank previous c rest position tokens _ hc _ ih =>
    obtain ⟨front, last, ascii, left, ht, hlast, hfront, hrest, hascii, hpos, hend⟩ := ih
    refine ⟨front, last, c :: ascii, left, ht, hlast, hfront, by rw [hrest]; rfl,
      List.forall_mem_cons.mpr ⟨?_, hascii⟩, ?_, hend⟩
    · have : c = ' ' ∨ c = '\t' := by simpa [Scanner.isBlank] using hc
      rcases this with rfl | rfl <;> decide
    · rw [hpos, utf8Width_cons, Nat.add_assoc]
  | @token previous taken rest position kind tokens _ hk hc _ ih =>
    obtain ⟨front, last, ascii, left, ht, hlast, hfront, hrest, hascii, hpos, hend⟩ := ih
    refine ⟨⟨kind, String.ofList taken, position⟩ :: front, last, taken ++ ascii, left,
      by rw [ht]; rfl, hlast, List.forall_mem_cons.mpr ⟨hk, hfront⟩,
      by rw [hrest, List.append_assoc], List.forall_mem_append.mpr ⟨hc, hascii⟩, ?_, hend⟩
    rw [hpos, utf8Width_append, Nat.add_assoc]

end Bytes

theorem tiled_tokenize (selector : String) :
    Tiled none selector.toList 0 (tokenize selector) :=
  Scanner.tiled_tokens Unicode.isAlphanumeric (.ofSelector selector) rfl none rfl

/-- **Tokens tile the selector.** Each token stands in the selector as its text and its position say,
behind the one before it with blanks between them at most. Only the last one is terminal; the bytes
before it are ASCII, so a character that is none makes the stream end in an error at or before it. -/
theorem tokenize_tiles (selector : String) :
    ∃ front last, tokenize selector = front ++ [last] ∧ last.isTerminal = true ∧
      (∀ token ∈ front, token.isTerminal = false) ∧
      (∀ before token after, front ++ [last] = before ++ token :: after →
        Placed selector before token) ∧
      (∃ ascii : String, (∀ c ∈ ascii.toList, c.toNat < 128) ∧
        bytesOf selector 0 last.position = ascii.toByteArray) ∧
      ∀ before c after, selector.toList = before ++ c :: after → 128 ≤ c.toNat →
        last.kind = .error ∧ last.position ≤ utf8Width before := by
  have ht := tiled_tokenize selector
  obtain ⟨front, last, ascii, rest, htokens, hlast, hfront, htext, hascii, hpos, hend⟩ :=
    ht.exists_last
  rw [Nat.zero_add] at hpos
  refine ⟨front, last, htokens, hlast, hfront, fun before token after hsplit => ?_, ?_, ?_⟩
  · have hp : Passed selector [] none [] [] selector.toList :=
      ⟨rfl, rfl, by simp, .inl ⟨rfl, rfl⟩⟩
    exact ht.placed hp rfl (htokens.trans hsplit)
  · refine ⟨String.ofList ascii, by rwa [String.toList_ofList], ?_⟩
    have := @bytesOf_width selector [] ascii rest htext
    rwa [utf8Width_nil, Nat.zero_add, ← hpos] at this
  · intro before c after hsplit hc
    have hsame : ascii ++ rest = before ++ c :: after := htext.symm.trans hsplit
    obtain ⟨between, hbefore, hrest⟩ : ∃ between, before = ascii ++ between ∧
        rest = between ++ c :: after := by
      rcases List.append_eq_append_iff.mp hsame with hlater | ⟨between, hearlier, hrest⟩
      · exact hlater
      · -- the character is none of those before the last token
        cases between with
        | nil => exact ⟨[], by rw [hearlier, List.append_nil, List.append_nil], hrest.symm⟩
        | cons first between =>
          obtain ⟨rfl, _⟩ := List.cons.inj hrest
          have := hascii c (by simp [hearlier])
          omega
    constructor
    · refine (isTerminal_iff.mp hlast).resolve_left fun he => ?_
      rw [hend he] at hrest
      simp at hrest
    · rw [hpos, hbefore, utf8Width_append]
      exact Nat.le_add_right ..

/-- Blanks, an escape, and an error at a character of two bytes. -/
theorem tokenize_tiles_umlaut :
    tokenize " p.\\41\t#\u00fc" = [⟨.elementName, "p", 1⟩, ⟨.classPrefix, ".", 2⟩,
        ⟨.className, "\\41", 3⟩, ⟨.idPrefix, "#", 7⟩, ⟨.error, "expected id", 8⟩] ∧
      Placed " p.\\41\t#\u00fc" [⟨.elementName, "p", 1⟩, ⟨.classPrefix, ".", 2⟩,
        ⟨.className, "\\41", 3⟩] ⟨.idPrefix, "#", 7⟩ ∧
      128 ≤ 'ü'.toNat ∧
      ∃ last ∈ tokenize " p.\\41\t#\u00fc", last.kind = .error ∧ last.position ≤ 8 := by
  have htokens : tokenize " p.\\41\t#\u00fc" = [⟨.elementName, "p", 1⟩, ⟨.classPrefix, ".", 2⟩,
    ⟨.className, "\\41", 3⟩, ⟨.idPrefix, "#", 7⟩, ⟨.error, "expected id", 8⟩] := rfl
  obtain ⟨front, last, hlast, _, _, hplaced, _, herror⟩ := tokenize_tiles " p.\\41\t#\u00fc"
  refine ⟨htokens, hplaced _ _ [⟨.error, "expected id", 8⟩] ?_, by decide, last, ?_, ?_⟩
  · rw [← hlast, htokens]
    rfl
  · rw [hlast]
    exact List.mem_concat_self
  · exact herror [' ', 'p', '.', '\\', '4', '1', '\t', '#'] 'ü' [] rfl (by decide)

end DomSelect
