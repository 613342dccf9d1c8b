import DomSelect.Proofs.Selector.Stream
import DomSelect.Selector.Compile

/-!
# Compiling from within a selector

`compileFrom` is the outcome of a compilation that has received some terms and goes on with what a
scanner is yet to emit. It has an equation for each state and first character, like the stream of
tokens. Whether it ends without an error does not depend on the terms (`error_compileFrom`), so the
selectors that are accepted are described by the scanner alone (`Accepts`).
-/

namespace DomSelect

variable {isAlphanumeric : Char → Bool} {terms : List Term} {scanner : Scanner}
  {rest taken left : List Char} {position : Nat} {c : Char}

namespace Compilation

theorem foldl_receive_finished (outcome : Compiled) (tokens : List Token) :
    tokens.foldl receive (finished outcome) = finished outcome := by
  induction tokens with
  | nil => rfl
  | cons token tokens ih => exact ih

/-- A token changes the terms, or it ends the compilation with them. -/
theorem receive_cases (token : Token) :
    (∃ update : List Term → List Term,
      ∀ terms, receive (building terms) token = building (update terms)) ∨
    ∃ error, ∀ terms, receive (building terms) token = finished ⟨⟨terms.reverse⟩, error⟩ := by
  obtain ⟨kind, text, position⟩ := token
  cases kind with
  | id => exact .inl ⟨fun terms => .byId text :: terms, fun _ => rfl⟩
  | wildcard | wildcardShorthand => exact .inl ⟨fun terms => .wildcard :: terms, fun _ => rfl⟩
  | elementName => exact .inl ⟨fun terms => .ofName text :: terms, fun _ => rfl⟩
  | className => exact .inl ⟨setClass text, fun _ => rfl⟩
  | idPrefix | classPrefix => exact .inl ⟨fun terms => terms, fun _ => rfl⟩
  | endOfInput => exact .inr ⟨none, fun _ => rfl⟩
  | error => exact .inr ⟨some ⟨position, text⟩, fun _ => rfl⟩

/-- The error, if there is one, is the same for every list of terms. -/
theorem error_foldl_receive (terms others : List Term) (tokens : List Token) :
    (tokens.foldl receive (building terms)).outcome.error =
      (tokens.foldl receive (building others)).outcome.error := by
  induction tokens generalizing terms others with
  | nil => rfl
  | cons token tokens ih =>
    rw [List.foldl_cons, List.foldl_cons]
    rcases receive_cases token with ⟨update, hupdate⟩ | ⟨error, herror⟩
    · rw [hupdate, hupdate]
      exact ih _ _
    · rw [herror, herror, foldl_receive_finished, foldl_receive_finished]
      rfl

theorem length_setClass_le (value : String) (terms : List Term) :
    (setClass value terms).length ≤ terms.length + 1 := by
  unfold setClass
  split
  · exact Nat.le_refl _
  · split
    · exact Nat.le_refl _
    · exact Nat.le_succ _

end Compilation

namespace Scanner

/-- The outcome of a compilation with the given terms, the latest first, that receives what is left
in the scanner. -/
def compileFrom (isAlphanumeric : Char → Bool) (terms : List Term) (scanner : Scanner) : Compiled :=
  ((scanner.tokens isAlphanumeric).foldl Compilation.receive (.building terms)).outcome

/-- The selector is well-formed from here on. -/
def Accepts (isAlphanumeric : Char → Bool) (scanner : Scanner) : Prop :=
  (scanner.compileFrom isAlphanumeric []).error = none

theorem compileSelectorWith_eq (isAlphanumeric : Char → Bool) (selector : String) :
    compileSelectorWith isAlphanumeric selector =
      compileFrom isAlphanumeric [] ⟨selector.toList, 0, .start⟩ := rfl

/-! ## Equations -/

theorem compileFrom_start_nil (terms : List Term) (position : Nat) :
    compileFrom isAlphanumeric terms ⟨[], position, .start⟩ = ⟨⟨terms.reverse⟩, none⟩ := by
  unfold compileFrom
  rw [tokens_start_nil]
  rfl

theorem compileFrom_start_blank (hc : isBlank c = true) (terms : List Term) (rest : List Char)
    (position : Nat) :
    compileFrom isAlphanumeric terms ⟨c :: rest, position, .start⟩ =
      compileFrom isAlphanumeric terms ⟨rest, position + c.utf8Size, .start⟩ := by
  unfold compileFrom
  rw [tokens_start_blank hc]

theorem compileFrom_start_hash (terms : List Term) (rest : List Char) (position : Nat) :
    compileFrom isAlphanumeric terms ⟨'#' :: rest, position, .start⟩ =
      compileFrom isAlphanumeric terms ⟨rest, position + 1, .idName⟩ := by
  unfold compileFrom
  rw [tokens_start_hash]
  rfl

theorem compileFrom_start_star (terms : List Term) (rest : List Char) (position : Nat) :
    compileFrom isAlphanumeric terms ⟨'*' :: rest, position, .start⟩ =
      compileFrom isAlphanumeric (.wildcard :: terms) ⟨rest, position + 1, .elementSuffix⟩ := by
  unfold compileFrom
  rw [tokens_start_star]
  rfl

theorem compileFrom_start_dot (terms : List Term) (rest : List Char) (position : Nat) :
    compileFrom isAlphanumeric terms ⟨'.' :: rest, position, .start⟩ =
      compileFrom isAlphanumeric (.wildcard :: terms) ⟨rest, position + 1, .className⟩ := by
  unfold compileFrom
  rw [tokens_start_dot]
  rfl

theorem compileFrom_start_name (hc : isMark c = false) (hn : c = '-' ∨ isAlphanumeric c = true)
    (terms : List Term) (rest : List Char) (position : Nat) :
    compileFrom isAlphanumeric terms ⟨c :: rest, position, .start⟩ =
      compileFrom isAlphanumeric terms ⟨c :: rest, position, .elementName⟩ := by
  unfold compileFrom
  rw [tokens_start_name hc hn]

theorem compileFrom_start_other (hc : isMark c = false)
    (hn : ¬ (c = '-' ∨ isAlphanumeric c = true)) (terms : List Term) (rest : List Char)
    (position : Nat) :
    compileFrom isAlphanumeric terms ⟨c :: rest, position, .start⟩ =
      ⟨⟨terms.reverse⟩, some ⟨position, Expected.elementSpecification.text⟩⟩ := by
  unfold compileFrom
  rw [tokens_start_other hc hn]
  rfl

theorem compileFrom_suffix_dot (terms : List Term) (rest : List Char) (position : Nat) :
    compileFrom isAlphanumeric terms ⟨'.' :: rest, position, .elementSuffix⟩ =
      compileFrom isAlphanumeric terms ⟨rest, position + 1, .className⟩ := by
  unfold compileFrom
  rw [tokens_suffix_dot]
  rfl

theorem compileFrom_suffix (h : rest.head? ≠ some '.') (terms : List Term) (position : Nat) :
    compileFrom isAlphanumeric terms ⟨rest, position, .elementSuffix⟩ =
      compileFrom isAlphanumeric terms ⟨rest, position, .start⟩ := by
  unfold compileFrom
  rw [tokens_suffix h]

/-- The terms with an identifier that was read as an id, as a name or as a class. -/
def withIdent (kind : TokenKind) (text : List Char) (terms : List Term) : List Term :=
  match kind with
  | .id => .byId (String.ofList text) :: terms
  | .elementName => .ofName (String.ofList text) :: terms
  | _ => Compilation.setClass (String.ofList text) terms

theorem withIdent_id (text : List Char) (terms : List Term) :
    withIdent .id text terms = .byId (String.ofList text) :: terms := rfl

theorem withIdent_elementName (text : List Char) (terms : List Term) :
    withIdent .elementName text terms = .ofName (String.ofList text) :: terms := rfl

theorem withIdent_className (text : List Char) (terms : List Term) :
    withIdent .className text terms = Compilation.setClass (String.ofList text) terms := rfl

theorem compileFrom_ident {state next : State} {kind : TokenKind} {expected : Expected}
    (hs : ReadsIdent state kind expected next) (h : Ident.split? rest = some (taken, left))
    (terms : List Term) (position : Nat) :
    compileFrom isAlphanumeric terms ⟨rest, position, state⟩ =
      compileFrom isAlphanumeric (withIdent kind taken terms)
        ⟨left, position + utf8Width taken, next⟩ := by
  unfold compileFrom
  rw [tokens_ident hs h]
  cases hs <;> rfl

theorem compileFrom_no_ident {state next : State} {kind : TokenKind} {expected : Expected}
    (hs : ReadsIdent state kind expected next) (h : Ident.split? rest = none) (terms : List Term)
    (position : Nat) :
    compileFrom isAlphanumeric terms ⟨rest, position, state⟩ =
      ⟨⟨terms.reverse⟩, some ⟨position, expected.text⟩⟩ := by
  unfold compileFrom
  rw [tokens_no_ident hs h]
  rfl

/-! ## Acceptance -/

theorem error_compileFrom (terms : List Term) :
    (scanner.compileFrom isAlphanumeric terms).error = none ↔ scanner.Accepts isAlphanumeric := by
  unfold Accepts compileFrom
  rw [Compilation.error_foldl_receive terms []]

theorem accepts_start_nil (position : Nat) : Accepts isAlphanumeric ⟨[], position, .start⟩ := by
  unfold Accepts
  rw [compileFrom_start_nil]

theorem accepts_start_blank (hc : isBlank c = true) :
    Accepts isAlphanumeric ⟨c :: rest, position, .start⟩ ↔
      Accepts isAlphanumeric ⟨rest, position + c.utf8Size, .start⟩ := by
  unfold Accepts
  rw [compileFrom_start_blank hc]

theorem accepts_start_hash :
    Accepts isAlphanumeric ⟨'#' :: rest, position, .start⟩ ↔
      Accepts isAlphanumeric ⟨rest, position + 1, .idName⟩ := by
  unfold Accepts
  rw [compileFrom_start_hash]

theorem accepts_start_star :
    Accepts isAlphanumeric ⟨'*' :: rest, position, .start⟩ ↔
      Accepts isAlphanumeric ⟨rest, position + 1, .elementSuffix⟩ := by
  rw [Accepts, compileFrom_start_star, error_compileFrom]

theorem accepts_start_dot :
    Accepts isAlphanumeric ⟨'.' :: rest, position, .start⟩ ↔
      Accepts isAlphanumeric ⟨rest, position + 1, .className⟩ := by
  rw [Accepts, compileFrom_start_dot, error_compileFrom]

theorem accepts_start_name (hc : isMark c = false) :
    Accepts isAlphanumeric ⟨c :: rest, position, .start⟩ ↔
      (c = '-' ∨ isAlphanumeric c = true) ∧
        Accepts isAlphanumeric ⟨c :: rest, position, .elementName⟩ := by
  by_cases hn : c = '-' ∨ isAlphanumeric c = true
  · unfold Accepts
    rw [compileFrom_start_name hc hn, and_iff_right hn]
  · unfold Accepts
    rw [compileFrom_start_other hc hn]
    exact iff_of_false nofun fun h => hn h.1

theorem accepts_suffix_dot :
    Accepts isAlphanumeric ⟨'.' :: rest, position, .elementSuffix⟩ ↔
      Accepts isAlphanumeric ⟨rest, position + 1, .className⟩ := by
  unfold Accepts
  rw [compileFrom_suffix_dot]

theorem accepts_suffix (h : rest.head? ≠ some '.') :
    Accepts isAlphanumeric ⟨rest, position, .elementSuffix⟩ ↔
      Accepts isAlphanumeric ⟨rest, position, .start⟩ := by
  unfold Accepts
  rw [compileFrom_suffix h]

theorem accepts_ident {state next : State} {kind : TokenKind} {expected : Expected}
    (hs : ReadsIdent state kind expected next) :
    Accepts isAlphanumeric ⟨rest, position, state⟩ ↔
      ∃ taken left, Ident.split? rest = some (taken, left) ∧
        Accepts isAlphanumeric ⟨left, position + utf8Width taken, next⟩ := by
  cases h : Ident.split? rest with
  | none =>
    rw [Accepts, compileFrom_no_ident hs h]
    exact iff_of_false nofun fun ⟨_, _, he, _⟩ => by cases he
  | some pair =>
    obtain ⟨taken, left⟩ := pair
    rw [Accepts, compileFrom_ident hs h, error_compileFrom]
    constructor
    · intro ha
      exact ⟨taken, left, rfl, ha⟩
    · rintro ⟨_, _, he, ha⟩
      cases he
      exact ha

/-! ## Lengths of chains -/

theorem length_withIdent_le (kind : TokenKind) (text : List Char) (terms : List Term) :
    (withIdent kind text terms).length ≤ terms.length + 1 := by
  unfold withIdent
  split
  · exact Nat.le_refl _
  · exact Nat.le_refl _
  · exact Compilation.length_setClass_le ..

/-- Each term that is added takes a character. -/
theorem length_compileFrom_le (isAlphanumeric : Char → Bool) (scanner : Scanner)
    (hr : isResting scanner.state = true) :
    ∀ terms, (scanner.compileFrom isAlphanumeric terms).chain.length ≤
      terms.length + scanner.rest.length := by
  have hended : ∀ (terms : List Term) (error : Option LexError) (left : Nat),
      (Compiled.mk ⟨terms.reverse⟩ error).chain.length ≤ terms.length + left := by
    intro terms error left
    rw [Chain.length, List.length_reverse]
    exact Nat.le_add_right ..
  refine stream_induction isAlphanumeric
    (motive := fun scanner => ∀ terms,
      (scanner.compileFrom isAlphanumeric terms).chain.length ≤ terms.length + scanner.rest.length)
    ?nil ?blank ?hash ?dot ?star ?name ?other ?ident ?noIdent ?suffixDot ?suffix scanner hr
  case nil =>
    intro position terms
    rw [compileFrom_start_nil]
    exact hended ..
  case blank =>
    intro c rest position hc ih terms
    rw [compileFrom_start_blank hc]
    exact (ih terms).trans (Nat.le_succ _)
  case hash =>
    intro rest position ih terms
    rw [compileFrom_start_hash]
    exact (ih terms).trans (Nat.le_succ _)
  case dot =>
    intro rest position ih terms
    rw [compileFrom_start_dot]
    refine (ih _).trans_eq ?_
    rw [List.length_cons, List.length_cons, Nat.add_right_comm, Nat.add_assoc]
  case star =>
    intro rest position ih terms
    rw [compileFrom_start_star]
    refine (ih _).trans_eq ?_
    rw [List.length_cons, List.length_cons, Nat.add_right_comm, Nat.add_assoc]
  case name =>
    intro c rest position hc hn ih terms
    rw [compileFrom_start_name hc hn]
    exact ih terms
  case other =>
    intro c rest position hc hn terms
    rw [compileFrom_start_other hc hn]
    exact hended ..
  case ident =>
    intro state next kind expected rest taken left position hs hsplit ih terms
    rw [compileFrom_ident hs hsplit]
    have hshort := length_split? hsplit
    have hterms := length_withIdent_le kind taken terms
    have hle := ih (withIdent kind taken terms)
    dsimp only at hle ⊢
    omega
  case noIdent =>
    intro state next kind expected rest position hs hsplit terms
    rw [compileFrom_no_ident hs hsplit]
    exact hended ..
  case suffixDot =>
    intro rest position ih terms
    rw [compileFrom_suffix_dot]
    exact (ih terms).trans (Nat.le_succ _)
  case suffix =>
    intro rest position hdot ih terms
    rw [compileFrom_suffix hdot]
    exact ih terms

end Scanner

/-- A chain has no more terms than its selector has characters. -/
theorem length_compile_le (selector : String) :
    (compile selector).length ≤ selector.length := by
  have hle : (compile selector).length ≤ 0 + selector.toList.length :=
    Scanner.length_compileFrom_le Unicode.isAlphanumeric (.ofSelector selector) rfl []
  rwa [Nat.zero_add, String.length_toList] at hle

/-- The selectors that have a chain are those that are accepted. -/
theorem compileStrictWith_eq_ok_iff {selector : String} {chain : Chain} :
    compileStrictWith isAlphanumeric selector = .ok chain ↔
      Scanner.Accepts isAlphanumeric ⟨selector.toList, 0, .start⟩ ∧
        (compileSelectorWith isAlphanumeric selector).chain = chain := by
  unfold compileStrictWith Compiled.result
  rw [← Scanner.error_compileFrom [], ← Scanner.compileSelectorWith_eq]
  cases (compileSelectorWith isAlphanumeric selector).error with
  | none => simp
  | some error => simp

theorem compileStrict_eq_ok {selector : String} {chain : Chain}
    (h : Scanner.compileFrom Unicode.isAlphanumeric [] ⟨selector.toList, 0, .start⟩ = ⟨chain, none⟩) :
    compileStrict selector = .ok chain := by
  have hcompiled : compileSelector selector = ⟨chain, none⟩ := h
  rw [compileStrict, hcompiled]
  rfl

/-- The error is that of the tokens, about this selector. -/
theorem error_of_compileStrict {selector : String} {error : SyntaxError}
    (h : compileStrict selector = .error error) :
    (compileSelector selector).error = some ⟨error.offset, error.expected⟩ ∧
      error.selector = selector := by
  unfold compileStrict Compiled.result at h
  cases hc : (compileSelector selector).error with
  | none => rw [hc] at h; cases h
  | some lexError => rw [hc] at h; cases h; exact ⟨rfl, rfl⟩

end DomSelect
