import DomSelect.Proofs.Selector.Language

/-!
# Writing a chain and reading it back

A `Canonical` chain holds what a compilation can put into it: ids, names and classes that are
identifiers, and no criteria beside an id. Every compiled chain is canonical
(`canonical_compileFrom`), and the written form of a canonical chain compiles to the chain itself
(`compileFrom_render`), since the identifiers of the written form are followed by a space, a `.` or
the end.
-/

namespace DomSelect

open Scanner

variable {isAlphanumeric : Char → Bool} {terms : List Term} {term last : Term} {rest : List Char}
  {name value selector : String} {position : Nat} {c : Char}

/-- An id alone, or a tag or `*` with or without a class; all of them are identifiers. -/
inductive Term.Canonical : Term → Prop
  | byId {value : String} (hi : IsIdent value.toList) : Canonical (.byId value)
  | ofName {name : String} {className : Option String}
      (hn : name = Term.anyName ∨ IsElementName name.toList)
      (hc : ∀ value, className = some value → IsIdent value.toList) :
      Canonical ⟨none, some name, className⟩

/-- Every term is canonical. -/
def Chain.Canonical (chain : Chain) : Prop := ∀ term ∈ chain.terms, term.Canonical

/-! ## Written terms -/

theorem setText?_of_isIdent (h : IsIdent value.toList) :
    Term.setText? (some value) = some value := by
  have hne : value ≠ "" := by
    rintro rfl
    exact (isIdent_iff.mp h).ne_nil rfl
  rw [Term.setText?, Option.filter_some, if_pos (by simpa using hne)]

theorem setText?_of_name (h : name = Term.anyName ∨ IsElementName name.toList) :
    Term.setText? (some name) = some name := by
  rcases h with rfl | h
  · rfl
  · exact setText?_of_isIdent h.1

theorem render_byId (h : IsIdent value.toList) : (Term.byId value).render = "#" ++ value := by
  unfold Term.render Term.id? Term.byId
  rw [setText?_of_isIdent h]

theorem render_ofName (h : name = Term.anyName ∨ IsElementName name.toList) :
    (Term.ofName name).render = name := by
  unfold Term.render Term.id? Term.class? Term.ofName
  simp only [setText?_of_name h]
  exact String.append_empty

theorem render_withClass (h : name = Term.anyName ∨ IsElementName name.toList)
    (hi : IsIdent value.toList) :
    ((Term.ofName name).withClass value).render = name ++ ("." ++ value) := by
  unfold Term.render Term.id? Term.class? Term.withClass Term.ofName
  simp only [setText?_of_name h, setText?_of_isIdent hi]
  rfl

/-! ## Reading what was written -/

/-- What may follow a term in a written chain. -/
def Separated (rest : List Char) : Prop := ∀ c, rest.head? = some c → c = ' '

theorem Separated.isPart (h : Separated rest) :
    ∀ c, rest.head? = some c → Ident.isPart c = false := by
  intro c hc
  rw [h c hc]
  decide

/-- An identifier before a mark or the end is read as it is written. -/
theorem compileFrom_whole {state next : State} {kind : TokenKind} {expected : Expected}
    (hs : ReadsIdent state kind expected next) (hi : IsIdent value.toList)
    (hrest : ∀ c, rest.head? = some c → Ident.isPart c = false) (terms : List Term)
    (position : Nat) :
    compileFrom isAlphanumeric terms ⟨value.toList ++ rest, position, state⟩ =
      compileFrom isAlphanumeric (withIdent kind value.toList terms)
        ⟨rest, position + utf8Width value.toList, next⟩ :=
  compileFrom_ident hs (Ident.split?_append_of_derives (isIdent_iff.mp hi) hrest) terms position

theorem compileFrom_name (hf : AgreesOnAscii isAlphanumeric)
    (hn : name = Term.anyName ∨ IsElementName name.toList)
    (hrest : ∀ c, rest.head? = some c → Ident.isPart c = false) (terms : List Term)
    (position : Nat) :
    ∃ position', compileFrom isAlphanumeric terms ⟨name.toList ++ rest, position, .start⟩ =
      compileFrom isAlphanumeric (.ofName name :: terms) ⟨rest, position', .elementSuffix⟩ := by
  rcases hn with rfl | ⟨hi, c, hc, hstarts⟩
  · exact ⟨_, compileFrom_start_star terms rest position⟩
  · refine ⟨position + utf8Width name.toList, ?_⟩
    have hstart : compileFrom isAlphanumeric terms ⟨name.toList ++ rest, position, .start⟩ =
        compileFrom isAlphanumeric terms ⟨name.toList ++ rest, position, .elementName⟩ := by
      obtain ⟨first, others, hcons⟩ := List.exists_cons_of_ne_nil (isIdent_iff.mp hi).ne_nil
      rw [hcons] at hc ⊢
      obtain rfl : first = c := Option.some.inj hc
      exact compileFrom_start_name hstarts.isMark (hstarts.begins hf) terms _ position
    rw [hstart, compileFrom_whole .elementName hi hrest, withIdent_elementName,
      String.ofList_toList]

theorem compileFrom_term (hf : AgreesOnAscii isAlphanumeric) (h : term.Canonical)
    (hrest : Separated rest) (terms : List Term) (position : Nat) :
    ∃ position', compileFrom isAlphanumeric terms ⟨term.render.toList ++ rest, position, .start⟩ =
      compileFrom isAlphanumeric (term :: terms) ⟨rest, position', .start⟩ := by
  cases h with
  | @byId value hi =>
    refine ⟨position + 1 + utf8Width value.toList, ?_⟩
    rw [render_byId hi, String.toList_append, List.append_assoc]
    refine (compileFrom_start_hash terms (value.toList ++ rest) position).trans ?_
    rw [compileFrom_whole .idName hi hrest.isPart, withIdent_id, String.ofList_toList]
  | @ofName name className hn hc =>
    cases className with
    | none =>
      obtain ⟨position', h⟩ := compileFrom_name hf hn hrest.isPart terms position
      refine ⟨position', ?_⟩
      have hdot : rest.head? ≠ some '.' := fun hd => absurd (hrest '.' hd) (by decide)
      rw [show (⟨none, some name, none⟩ : Term) = .ofName name from rfl, render_ofName hn, h,
        compileFrom_suffix hdot]
    | some value =>
      have hi := hc value rfl
      have hpart : ∀ c, ('.' :: (value.toList ++ rest)).head? = some c →
          Ident.isPart c = false := by
        rintro _ ⟨⟩
        decide
      obtain ⟨position', h⟩ := compileFrom_name hf hn hpart terms position
      refine ⟨position' + 1 + utf8Width value.toList, ?_⟩
      rw [show (⟨none, some name, some value⟩ : Term) = (Term.ofName name).withClass value from rfl,
        render_withClass hn hi, String.toList_append, String.toList_append, List.append_assoc,
        List.append_assoc]
      refine h.trans ((compileFrom_suffix_dot _ (value.toList ++ rest) position').trans ?_)
      rw [compileFrom_whole .className hi hrest.isPart, withIdent_className, String.ofList_toList]
      rfl

/-- **Reading back.** A written canonical chain compiles to its terms. -/
theorem compileFrom_render (hf : AgreesOnAscii isAlphanumeric) {more : List Term}
    (h : ∀ term ∈ more, term.Canonical) (terms : List Term) (position : Nat) :
    compileFrom isAlphanumeric terms ⟨(Chain.render ⟨more⟩).toList, position, .start⟩ =
      ⟨⟨terms.reverse ++ more⟩, none⟩ := by
  rw [Chain.render, String.toList_intercalate, List.map_map]
  -- the blank between two terms is read with the first one, so the last term stands apart
  induction more generalizing terms position with
  | nil =>
    rw [List.append_nil]
    exact compileFrom_start_nil terms position
  | cons term more ih =>
    obtain ⟨hterm, hmore⟩ := List.forall_mem_cons.mp h
    cases more with
    | nil =>
      have hend : Separated [] := nofun
      obtain ⟨position', hread⟩ := compileFrom_term hf hterm hend terms position
      rw [List.append_nil] at hread
      rw [List.map_singleton, List.intercalate_singleton]
      refine hread.trans ?_
      rw [compileFrom_start_nil, List.reverse_cons]
    | cons next more =>
      have hsep : Separated (' ' :: [' '].intercalate ((next :: more).map
          (String.toList ∘ Term.render))) := by
        rintro _ ⟨⟩
        rfl
      obtain ⟨position', hread⟩ := compileFrom_term hf hterm hsep terms position
      rw [List.map_cons, List.map_cons, List.intercalate_cons_cons, List.append_assoc]
      refine hread.trans ?_
      rw [compileFrom_start_blank rfl]
      refine (ih hmore (term :: terms) _).trans ?_
      rw [List.reverse_cons, List.append_assoc]
      rfl

/-! ## What is compiled is canonical -/

/-- The terms that a compilation has when the scanner is in its state: canonical ones, of which the
latest has a tag where a class may follow. A name is begun by a character that may begin it. -/
def Fits (isAlphanumeric : Char → Bool) (scanner : Scanner) (terms : List Term) : Prop :=
  (∀ term ∈ terms, term.Canonical) ∧
    match scanner.state with
    | .elementName => ∃ c rest, scanner.rest = c :: rest ∧ (c = '-' ∨ isAlphanumeric c = true)
    | .elementSuffix | .className => ∃ last earlier, terms = last :: earlier ∧ last.id = none
    | _ => True

theorem canonical_reverse (h : ∀ term ∈ terms, term.Canonical) :
    Chain.Canonical ⟨terms.reverse⟩ := fun term ht => h term (List.mem_reverse.mp ht)

theorem canonical_setClass {ident : List Char} (h : ∀ term ∈ last :: terms, term.Canonical)
    (hid : last.id = none) (hi : IsIdent ident) :
    ∀ term ∈ Compilation.setClass (String.ofList ident) (last :: terms), term.Canonical := by
  obtain ⟨hlast, hterms⟩ := List.forall_mem_cons.mp h
  cases hlast with
  | byId => cases hid
  | ofName hn =>
    refine List.forall_mem_cons.mpr ⟨.ofName hn ?_, hterms⟩
    rintro _ ⟨⟩
    rwa [String.toList_ofList]

/-- An identifier that is read keeps the terms canonical. -/
theorem fits_withIdent (hf : AgreesOnAscii isAlphanumeric) {state next : State} {kind : TokenKind}
    {expected : Expected} (hs : ReadsIdent state kind expected next) {taken left : List Char}
    (hsplit : Ident.split? rest = some (taken, left))
    (h : Fits isAlphanumeric ⟨rest, position, state⟩ terms) (position' : Nat) :
    Fits isAlphanumeric ⟨left, position', next⟩ (withIdent kind taken terms) := by
  obtain ⟨hterms, hstate⟩ := h
  have hi := isIdent_iff.mpr (Ident.derives_of_split? hsplit)
  cases hs with
  | idName =>
    refine ⟨List.forall_mem_cons.mpr ⟨.byId ?_, hterms⟩, trivial⟩
    rwa [String.toList_ofList]
  | elementName =>
    obtain ⟨c, others, rfl, hn⟩ := hstate
    refine ⟨List.forall_mem_cons.mpr ⟨.ofName (.inr ?_) nofun, hterms⟩, _, terms, rfl, rfl⟩
    rw [String.toList_ofList]
    exact isElementName_of_split? hf hn hsplit
  | className =>
    obtain ⟨last, earlier, rfl, hid⟩ := hstate
    exact ⟨canonical_setClass hterms hid hi, trivial⟩

/-- The terms that are read from a selector join canonical ones. -/
theorem canonical_compileFrom (hf : AgreesOnAscii isAlphanumeric) (scanner : Scanner)
    (hr : isResting scanner.state = true) :
    ∀ terms, Fits isAlphanumeric scanner terms →
      (scanner.compileFrom isAlphanumeric terms).chain.Canonical := by
  have hany : ∀ {terms : List Term}, (∀ term ∈ terms, term.Canonical) →
      ∀ term ∈ Term.wildcard :: terms, term.Canonical := fun h =>
    List.forall_mem_cons.mpr ⟨.ofName (.inl rfl) nofun, h⟩
  refine stream_induction isAlphanumeric
    (motive := fun scanner => ∀ terms, Fits isAlphanumeric scanner terms →
      (scanner.compileFrom isAlphanumeric terms).chain.Canonical)
    ?nil ?blank ?hash ?dot ?star ?name ?other ?ident ?noIdent ?suffixDot ?suffix scanner hr
  case nil =>
    intro position terms h
    rw [compileFrom_start_nil]
    exact canonical_reverse h.1
  case blank =>
    intro c rest position hc ih terms h
    rw [compileFrom_start_blank hc]
    exact ih terms h
  case hash =>
    intro rest position ih terms h
    rw [compileFrom_start_hash]
    exact ih terms h
  case dot =>
    intro rest position ih terms h
    rw [compileFrom_start_dot]
    exact ih _ ⟨hany h.1, _, terms, rfl, rfl⟩
  case star =>
    intro rest position ih terms h
    rw [compileFrom_start_star]
    exact ih _ ⟨hany h.1, _, terms, rfl, rfl⟩
  case name =>
    intro c rest position hc hn ih terms h
    rw [compileFrom_start_name hc hn]
    exact ih terms ⟨h.1, c, rest, rfl, hn⟩
  case other =>
    intro c rest position hc hn terms h
    rw [compileFrom_start_other hc hn]
    exact canonical_reverse h.1
  case ident =>
    intro state next kind expected rest taken left position hs hsplit ih terms h
    rw [compileFrom_ident hs hsplit]
    exact ih _ (fits_withIdent hf hs hsplit h _)
  case noIdent =>
    intro state next kind expected rest position hs hsplit terms h
    rw [compileFrom_no_ident hs hsplit]
    exact canonical_reverse h.1
  case suffixDot =>
    intro rest position ih terms h
    rw [compileFrom_suffix_dot]
    exact ih terms h
  case suffix =>
    intro rest position hdot ih terms h
    rw [compileFrom_suffix hdot]
    exact ih terms ⟨h.1, trivial⟩

/-! ## The round trip -/

/-- **Compiling and writing are inverse.** Compiled chains are canonical, and written canonical
chains compile to themselves; so a compiled chain is known by its written form. -/
theorem compileStrict_render :
    (∀ selector, (compile selector).Canonical) ∧
      (∀ chain : Chain, chain.Canonical → compileStrict chain.render = .ok chain) ∧
      (∀ selector, compileStrict (compile selector).render = .ok (compile selector)) ∧
      ∀ selector other, (compile selector).render = (compile other).render →
        compile selector = compile other := by
  have hcanonical : ∀ selector, (compile selector).Canonical := fun selector =>
    canonical_compileFrom agreesOnAscii_unicode ⟨selector.toList, 0, .start⟩ rfl [] ⟨nofun, trivial⟩
  have hback : ∀ chain : Chain, chain.Canonical → compileStrict chain.render = .ok chain := by
    intro chain hc
    have hread := compileFrom_render agreesOnAscii_unicode hc [] 0
    refine compileStrictWith_eq_ok_iff.mpr ⟨?_, ?_⟩
    · unfold Accepts
      exact congrArg Compiled.error hread
    · exact congrArg Compiled.chain hread
  have htrip : ∀ selector, compileStrict (compile selector).render = .ok (compile selector) :=
    fun selector => hback _ (hcanonical selector)
  refine ⟨hcanonical, hback, htrip, fun selector other h => ?_⟩
  have := htrip selector
  rw [h, htrip other] at this
  exact (Except.ok.inj this).symm

/-- An id whose escape could take digits that follow, a name that ends with an escape, and a class
that begins with one. -/
theorem compileStrict_render_escapes :
    Chain.Canonical ⟨[.byId "\\ab", ⟨none, some "-x\\2", some "\\\\f1"⟩, .wildcard]⟩ ∧
      compileStrict (Chain.render
          ⟨[.byId "\\ab", ⟨none, some "-x\\2", some "\\\\f1"⟩, .wildcard]⟩) =
        .ok ⟨[.byId "\\ab", ⟨none, some "-x\\2", some "\\\\f1"⟩, .wildcard]⟩ ∧
      compile ".a" = ⟨[Term.wildcard.withClass "a"]⟩ ∧
      (compile ".a").render = (compile "*.a").render ∧ compile ".a" = compile "*.a" := by
  have hid : Term.Canonical (.byId "\\ab") := .byId rfl
  have hname : Term.Canonical ⟨none, some "-x\\2", some "\\\\f1"⟩ := by
    refine .ofName (.inr ⟨rfl, '-', rfl, .inl rfl⟩) ?_
    rintro _ ⟨⟩
    rfl
  have hany : Term.wildcard.Canonical := .ofName (.inl rfl) nofun
  have hchain : Chain.Canonical
      ⟨[.byId "\\ab", ⟨none, some "-x\\2", some "\\\\f1"⟩, .wildcard]⟩ :=
    List.forall_mem_cons.mpr ⟨hid, List.forall_mem_cons.mpr ⟨hname,
      List.forall_mem_singleton.mpr hany⟩⟩
  have hrender : (compile ".a").render = (compile "*.a").render := rfl
  exact ⟨hchain, compileStrict_render.2.1 _ hchain, rfl, hrender,
    compileStrict_render.2.2.2 _ _ hrender⟩

end DomSelect
