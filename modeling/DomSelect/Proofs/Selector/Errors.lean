import DomSelect.Proofs.Selector.Language
import DomSelect.Proofs.Selector.Tiling

/-!
# Where a selector breaks off

The place of an error splits a selector (`compileStrict_error_splits`). The text before it is what
the chain of the error was built from: alone it has this chain, and behind a `#` or a `.` it takes
one more identifier, which becomes an id term or the class of the latest term.

That the text may be cut there is not plain, since what follows an identifier decides where it ends.
But an identifier is the longest one at its place, so it stays the same with less behind it
(`Ident.split?_append_of_cut`); and where an identifier is put in, a mark comes before it, which no
earlier one can pass (`split?_append_of_filled`). `Cut` says this of a scanner in any state, and it
is carried along the stream from the error backwards.
-/

namespace DomSelect

open Scanner

variable {isAlphanumeric : Char → Bool} {scanner : Scanner} {expected : Expected}
  {terms earlier built : List Term} {name rest taken before after filler : List Char}
  {position : Nat}

/-! ## Definitions -/

/-- The text ends in a character at which every identifier ends. -/
def EndsInMark (text : List Char) : Prop :=
  ∃ front mark, text = front ++ [mark] ∧ isMark mark = true

/-- The latest term may get a class. -/
def Bare (terms : List Term) : Prop :=
  ∃ last earlier, terms = last :: earlier ∧ last.isIdTerm = false ∧ last.className = none

/-- What completes the text before an error, if an identifier is chosen. -/
def Expected.filling (expected : Expected) (name : List Char) : List Char :=
  match expected with
  | id | className => name
  | elementName | elementSpecification => []

/-- The terms of the completed text. -/
def Expected.fill (expected : Expected) (name : List Char) (terms : List Term) : List Term :=
  match expected with
  | id => .byId (String.ofList name) :: terms
  | className => Compilation.setClass (String.ofList name) terms
  | elementName | elementSpecification => terms

/-- The mark that leads to a state. -/
def Scanner.State.mark : State → List Char
  | idName => ['#']
  | className => ['.']
  | _ => []

/-- The state from which a state is entered without reading anything. -/
def Scanner.State.entry : State → State
  | elementName => start
  | state => state

/-- What is known of the terms and of the text in a state that a stream comes to. -/
def Entered (isAlphanumeric : Char → Bool) (terms : List Term) (scanner : Scanner) : Prop :=
  match scanner.state with
  | .elementName => ∃ c rest, scanner.rest = c :: rest ∧ isMark c = false ∧
      (c = '-' ∨ isAlphanumeric c = true)
  | .elementSuffix | .className => Bare terms
  | _ => True

/-- The scanner meets an error behind `before`, with the terms `built`. The text before the error
can be completed, which leads to no error and adds the identifier that was missing, if any. -/
structure Cut (isAlphanumeric : Char → Bool) (terms : List Term) (scanner : Scanner)
    (expected : Expected) (before after : List Char) (built : List Term) : Prop where
  split : scanner.rest = before ++ after
  error : scanner.compileFrom isAlphanumeric terms =
    ⟨⟨built.reverse⟩, some ⟨scanner.position + utf8Width before, expected.text⟩⟩
  bare : expected = .className → Bare built
  /-- Where an identifier is put in, a mark is before it. -/
  marked (name : List Char) :
    expected.filling name = [] ∨ EndsInMark (scanner.state.mark ++ before)
  /-- The completed text is read to its end. -/
  filled (name : List Char) (hn : IsIdent name) :
    compileFrom isAlphanumeric terms
      ⟨before ++ expected.filling name, scanner.position, scanner.state.entry⟩ =
        ⟨⟨(expected.fill name built).reverse⟩, none⟩

/-- The scanner meets an error at which it can be cut. -/
def Breaks (isAlphanumeric : Char → Bool) (terms : List Term) (scanner : Scanner) : Prop :=
  ∃ expected before after built, Cut isAlphanumeric terms scanner expected before after built

/-! ## Identifiers before the cut -/

theorem EndsInMark.append (h : EndsInMark before) (front : List Char) :
    EndsInMark (front ++ before) := by
  obtain ⟨others, mark, rfl, hmark⟩ := h
  exact ⟨front ++ others, mark, (List.append_assoc ..).symm, hmark⟩

/-- An identifier before the cut ends where it does, whatever the cut is filled with. -/
theorem split?_append_of_filled (h : Ident.split? rest = some (taken, before ++ after))
    (hfiller : filler = [] ∨ EndsInMark before) :
    Ident.split? (taken ++ (before ++ filler)) = some (taken, before ++ filler) := by
  rw [← Ident.split?_append h] at h
  rcases hfiller with rfl | ⟨front, mark, rfl, hmark⟩
  · rw [List.append_nil]
    exact Ident.split?_append_of_cut h
  · rw [List.append_assoc front] at h
    have hstop : ∀ c, ([mark] ++ filler).head? = some c → Ident.isPart c = false := by
      rintro _ ⟨⟩
      exact isPart_of_isMark hmark
    rw [List.append_assoc front, ← List.append_assoc taken, Ident.split?_append_rest _ hstop,
      Ident.split?_append_of_cut h]
    rfl

theorem bare_cons {term : Term} (hi : term.isIdTerm = false) (hc : term.className = none)
    (terms : List Term) : Bare (term :: terms) :=
  ⟨term, terms, rfl, hi, hc⟩

theorem split?_of_isIdent (hn : IsIdent name) : Ident.split? name = some (name, []) := by
  rw [Ident.split?, hn, Option.map_some, List.take_length, List.drop_length]

/-! ## One step backwards -/

namespace Cut

/-- The cut is right here if the identifier of this state is missing. -/
theorem missing {state next : State} {kind : TokenKind}
    (hs : ReadsIdent state kind expected next) (hsplit : Ident.split? rest = none)
    (he : Entered isAlphanumeric terms ⟨rest, position, state⟩) :
    Cut isAlphanumeric terms ⟨rest, position, state⟩ expected [] rest terms where
  split := rfl
  error := compileFrom_no_ident hs hsplit terms position
  bare := by
    rintro rfl
    cases hs
    exact he
  marked name := by
    cases hs with
    | idName => exact .inr ⟨[], '#', rfl, rfl⟩
    | elementName => exact .inl rfl
    | className => exact .inr ⟨[], '.', rfl, rfl⟩
  filled name hn := by
    have hname := split?_of_isIdent hn
    cases hs with
    | idName =>
      exact (compileFrom_ident .idName hname terms position).trans (compileFrom_start_nil ..)
    | elementName => exact compileFrom_start_nil terms position
    | className =>
      exact (compileFrom_ident .className hname terms position).trans (compileFrom_start_nil ..)

/-- What has been read before a scanner is read before the cut as well, if its reading does not
depend on what is cut off. -/
theorem prepend (taken : List Char) {state next : State}
    (h : Cut isAlphanumeric earlier ⟨rest, position + utf8Width taken, next⟩ expected before after
      built)
    (hwhole : compileFrom isAlphanumeric terms ⟨taken ++ rest, position, state⟩ =
      compileFrom isAlphanumeric earlier ⟨rest, position + utf8Width taken, next⟩)
    (hfilled : ∀ filler, filler = [] ∨ EndsInMark (next.mark ++ before) →
      compileFrom isAlphanumeric terms ⟨taken ++ (before ++ filler), position, state.entry⟩ =
        compileFrom isAlphanumeric earlier
          ⟨before ++ filler, position + utf8Width taken, next.entry⟩)
    (hmark : EndsInMark (next.mark ++ before) → EndsInMark (state.mark ++ (taken ++ before))) :
    Cut isAlphanumeric terms ⟨taken ++ rest, position, state⟩ expected (taken ++ before) after
      built where
  split := by
    have hsplit : rest = before ++ after := h.split
    rw [hsplit, List.append_assoc]
  error := by
    rw [hwhole, h.error, utf8Width_append, Nat.add_assoc]
  bare := h.bare
  marked name := (h.marked name).imp_right hmark
  filled name hn := by
    rw [← h.filled name hn, List.append_assoc]
    exact hfilled _ (h.marked name)

/-- An identifier before the cut, and the character that leads to the name of an element. -/
theorem prepend_ident {state next : State} {kind : TokenKind} {wanted : Expected}
    (hs : ReadsIdent state kind wanted next)
    (hsplit : Ident.split? rest = some (taken, before ++ after))
    (he : Entered isAlphanumeric terms ⟨rest, position, state⟩)
    (h : Cut isAlphanumeric (withIdent kind taken terms)
      ⟨before ++ after, position + utf8Width taken, next⟩ expected before after built) :
    Cut isAlphanumeric terms ⟨rest, position, state⟩ expected (taken ++ before) after built := by
  rw [← Ident.split?_append hsplit]
  refine h.prepend taken ?_ (fun filler hfiller => ?_) fun hmark => ?_
  · rw [Ident.split?_append hsplit, compileFrom_ident hs hsplit]
  · have hnext : next.mark = [] ∧ next.entry = next := by cases hs <;> exact ⟨rfl, rfl⟩
    rw [hnext.1] at hfiller
    rw [hnext.2, ← compileFrom_ident hs (split?_append_of_filled hsplit hfiller)]
    cases hs with
    | idName | className => rfl
    | elementName =>
      obtain ⟨c, others, rfl, hc, hn⟩ := he
      obtain ⟨first, left, rfl⟩ :=
        List.exists_cons_of_ne_nil (Ident.derives_of_split? hsplit).ne_nil
      obtain rfl : first = c := (List.cons.inj (Ident.split?_append hsplit)).1
      exact compileFrom_start_name hc hn terms (left ++ (before ++ filler)) position
  · cases hs <;> exact (hmark.append _).append _

end Cut

/-- A step that reads the same characters whatever follows them leaves the cut where it is. -/
theorem Breaks.prepend (taken : List Char) {state next : State}
    (h : Breaks isAlphanumeric earlier ⟨rest, position + utf8Width taken, next⟩)
    (hrun : ∀ rest, compileFrom isAlphanumeric terms ⟨taken ++ rest, position, state⟩ =
      compileFrom isAlphanumeric earlier ⟨rest, position + utf8Width taken, next⟩)
    (hstate : state.entry = state) (hnext : next.entry = next)
    (hmark : ∀ before, EndsInMark (next.mark ++ before) →
      EndsInMark (state.mark ++ (taken ++ before))) :
    Breaks isAlphanumeric terms ⟨taken ++ rest, position, state⟩ := by
  obtain ⟨expected, before, after, built, hcut⟩ := h
  refine ⟨expected, taken ++ before, after, built, ?_⟩
  refine hcut.prepend taken (hrun rest) (fun filler _ => ?_) (hmark before)
  rw [hstate, hnext]
  exact hrun (before ++ filler)

/-! ## The whole stream -/

namespace Scanner

/-- A scanner that does not come to the end meets an error. -/
theorem breaks_of_not_accepts (isAlphanumeric : Char → Bool) (scanner : Scanner)
    (hr : isResting scanner.state = true) :
    ∀ terms, Entered isAlphanumeric terms scanner → ¬ scanner.Accepts isAlphanumeric →
      Breaks isAlphanumeric terms scanner := by
  refine stream_induction isAlphanumeric
    (motive := fun scanner => ∀ terms, Entered isAlphanumeric terms scanner →
      ¬ scanner.Accepts isAlphanumeric → Breaks isAlphanumeric terms scanner)
    ?nil ?blank ?hash ?dot ?star ?name ?other ?ident ?noIdent ?suffixDot ?suffix scanner hr
  case nil =>
    intro position terms _ hno
    exact absurd (accepts_start_nil position) hno
  case blank =>
    intro c rest position hc ih terms _ hno
    have h := ih terms trivial fun ha => hno ((accepts_start_blank hc).mpr ha)
    exact h.prepend [c] (fun rest => compileFrom_start_blank hc terms rest position) rfl rfl
      fun _ hmark => hmark.append [c]
  case hash =>
    intro rest position ih terms _ hno
    have h := ih terms trivial fun ha => hno (accepts_start_hash.mpr ha)
    exact h.prepend ['#'] (fun rest => compileFrom_start_hash terms rest position) rfl rfl
      fun _ hmark => hmark
  case dot =>
    intro rest position ih terms _ hno
    have h := ih (.wildcard :: terms) (bare_cons rfl rfl terms) fun ha =>
      hno (accepts_start_dot.mpr ha)
    exact h.prepend ['.'] (fun rest => compileFrom_start_dot terms rest position) rfl rfl
      fun _ hmark => hmark
  case star =>
    intro rest position ih terms _ hno
    have h := ih (.wildcard :: terms) (bare_cons rfl rfl terms) fun ha =>
      hno (accepts_start_star.mpr ha)
    exact h.prepend ['*'] (fun rest => compileFrom_start_star terms rest position) rfl rfl
      fun _ hmark => hmark.append ['*']
  case name =>
    intro c rest position hc hn ih terms _ hno
    obtain ⟨expected, before, after, built, h⟩ := ih terms ⟨c, rest, rfl, hc, hn⟩ fun ha =>
      hno ((accepts_start_name hc).mpr ⟨hn, ha⟩)
    -- the name is read from here on in the completed text, too
    exact ⟨expected, before, after, built,
      { h with error := (compileFrom_start_name hc hn terms rest position).trans h.error }⟩
  case other =>
    intro c rest position hc hn terms _ hno
    refine ⟨.elementSpecification, [], c :: rest, terms, rfl, ?_, nofun, fun _ => .inl rfl, ?_⟩
    · exact compileFrom_start_other hc hn terms rest position
    · exact fun _ _ => compileFrom_start_nil terms position
  case ident =>
    intro state next kind wanted rest taken left position hs hsplit ih terms he hno
    have hentered : Entered isAlphanumeric (withIdent kind taken terms)
        ⟨left, position + utf8Width taken, next⟩ := by
      cases hs with
      | idName | className => trivial
      | elementName => exact bare_cons rfl rfl terms
    obtain ⟨expected, before, after, built, h⟩ := ih _ hentered fun ha =>
      hno ((accepts_ident hs).mpr ⟨taken, left, hsplit, ha⟩)
    obtain rfl : left = before ++ after := h.split
    exact ⟨expected, taken ++ before, after, built, h.prepend_ident hs hsplit he⟩
  case noIdent =>
    intro state next kind wanted rest position hs hsplit terms he _
    exact ⟨wanted, [], rest, terms, .missing hs hsplit he⟩
  case suffixDot =>
    intro rest position ih terms he hno
    have h := ih terms he fun ha => hno (accepts_suffix_dot.mpr ha)
    exact h.prepend ['.'] (fun rest => compileFrom_suffix_dot terms rest position) rfl rfl
      fun _ hmark => hmark
  case suffix =>
    intro rest position hdot ih terms _ hno
    obtain ⟨expected, before, after, built, h⟩ := ih terms trivial fun ha =>
      hno ((accepts_suffix hdot).mpr ha)
    refine ⟨expected, before, after, built, ?_⟩
    refine h.prepend [] (compileFrom_suffix hdot terms position)
      (fun filler hfiller => compileFrom_suffix ?_ terms position) id
    -- the first character is the same, or nothing is left
    obtain rfl : rest = before ++ after := h.split
    cases before with
    | nil =>
      rcases hfiller with rfl | ⟨front, mark, hnil, -⟩
      · exact nofun
      · exact absurd (congrArg List.length hnil) (by simp [State.mark])
    | cons _ _ => exact hdot

end Scanner

/-! ## Selectors -/

/-- The selector of an error can be cut at its offset. -/
theorem exists_cut_of_compileStrict {selector : String} {error : SyntaxError}
    (h : compileStrict selector = .error error) :
    ∃ expected before after built, Cut Unicode.isAlphanumeric [] ⟨selector.toList, 0, .start⟩
        expected before after built ∧
      error = ⟨selector, utf8Width before, expected.text, ⟨built.reverse⟩⟩ ∧
      compile selector = ⟨built.reverse⟩ := by
  have hno : ¬ Accepts Unicode.isAlphanumeric ⟨selector.toList, 0, .start⟩ := by
    intro ha
    have hok := compileStrictWith_eq_ok_iff.mpr ⟨ha, rfl⟩
    cases h.symm.trans hok
  obtain ⟨expected, before, after, built, hcut⟩ :=
    breaks_of_not_accepts Unicode.isAlphanumeric ⟨selector.toList, 0, .start⟩ rfl [] trivial hno
  have hcompiled : compileSelector selector =
      ⟨⟨built.reverse⟩, some ⟨utf8Width before, expected.text⟩⟩ := by
    rw [← Nat.zero_add (utf8Width before)]
    exact hcut.error
  refine ⟨expected, before, after, built, hcut, ?_, by rw [compile, hcompiled]⟩
  rw [compileStrict, hcompiled] at h
  exact (Except.error.inj h).symm

/-- Heads of a text that have the same number of bytes are the same. -/
theorem eq_of_utf8Width_eq {before' after' : List Char} (h : before ++ after = before' ++ after')
    (hw : utf8Width before = utf8Width before') : before = before' := by
  have hempty : ∀ {left right middle : List Char}, right = left ++ middle →
      utf8Width left = utf8Width right → left = right := by
    rintro left _ middle rfl hwidth
    rw [utf8Width_append] at hwidth
    have := length_le_utf8Width middle
    obtain rfl : middle = [] := List.length_eq_zero_iff.mp (by omega)
    rw [List.append_nil]
  rcases List.append_eq_append_iff.mp h with ⟨_, hlong, -⟩ | ⟨_, hlong, -⟩
  · exact hempty hlong hw
  · exact (hempty hlong hw.symm).symm

/-- **An error splits the selector where the chain ends.** The offset of an error lies in the
selector, between two characters, and the chain of the error is that of the selector read leniently.
The text before it alone is what this chain was compiled from: where an id or a class name was
expected, any identifier put in there gives the id term or the class of the latest term, which has
none; otherwise the text is a selector as it stands. -/
theorem compileStrict_error_splits {selector : String} {error : SyntaxError}
    (h : compileStrict selector = .error error) :
    error.selector = selector ∧ error.built = compile selector ∧
      error.offset ≤ selector.utf8ByteSize ∧ String.Pos.Raw.IsValid selector ⟨error.offset⟩ ∧
      ∀ before after : String, selector = before ++ after → before.utf8ByteSize = error.offset →
        error.expected = "expected id" ∧
          (∀ name : String, IsIdent name.toList →
            compileStrict (before ++ name) = .ok ⟨error.built.terms ++ [.byId name]⟩) ∨
        error.expected = "expected class name" ∧
          (∃ earlier last, error.built.terms = earlier ++ [last] ∧ last.isIdTerm = false ∧
            last.className = none ∧ ∀ name : String, IsIdent name.toList →
              compileStrict (before ++ name) = .ok ⟨earlier ++ [last.withClass name]⟩) ∨
        (error.expected = "expected element name" ∨
            error.expected = "expected element specification") ∧
          compileStrict before = .ok error.built := by
  obtain ⟨expected, cutText, cutRest, built, hcut, rfl, hcompile⟩ := exists_cut_of_compileStrict h
  have hsplit : selector.toList = cutText ++ cutRest := hcut.split
  refine ⟨rfl, hcompile.symm, ?_, isValid_width hsplit, ?_⟩
  · rw [← utf8Width_toList, hsplit, utf8Width_append]
    exact Nat.le_add_right ..
  rintro before after rfl hsize
  rw [String.toList_append] at hsplit
  rw [← utf8Width_toList] at hsize
  obtain rfl : before.toList = cutText := eq_of_utf8Width_eq hsplit hsize
  have hfilled (name : String) (hn : IsIdent name.toList) :
      compileStrict (before ++ String.ofList (expected.filling name.toList)) =
        .ok ⟨(expected.fill name.toList built).reverse⟩ := by
    refine compileStrict_eq_ok ?_
    rw [String.toList_append, String.toList_ofList]
    exact hcut.filled _ hn
  cases expected with
  | id =>
    refine .inl ⟨rfl, fun name hn => ?_⟩
    simpa [Expected.filling, Expected.fill] using hfilled name hn
  | className =>
    obtain ⟨last, earlier, rfl, hid, hclass⟩ := hcut.bare rfl
    refine .inr (.inl ⟨rfl, earlier.reverse, last, List.reverse_cons, hid, hclass, ?_⟩)
    intro name hn
    simpa [Expected.filling, Expected.fill, Compilation.setClass, hid] using hfilled name hn
  | elementName =>
    refine .inr (.inr ⟨.inl rfl, ?_⟩)
    simpa [Expected.filling, Expected.fill] using hfilled "x" rfl
  | elementSpecification =>
    refine .inr (.inr ⟨.inr rfl, ?_⟩)
    simpa [Expected.filling, Expected.fill] using hfilled "x" rfl

/-- The text is cut behind a mark, before a character of two bytes, and takes the class `x`. -/
theorem compileStrict_error_splits_umlaut :
    compileStrict "p.\\41 *.\u00fc" = .error ⟨"p.\\41 *.\u00fc", 8, "expected class name",
        ⟨[(Term.ofName "p").withClass "\\41", .wildcard]⟩⟩ ∧
      "p.\\41 *.".utf8ByteSize = 8 ∧ IsIdent "x".toList ∧
      compileStrict "p.\\41 *.x" =
        .ok ⟨[(Term.ofName "p").withClass "\\41", Term.wildcard.withClass "x"]⟩ := by
  have herror : compileStrict "p.\\41 *.\u00fc" = .error ⟨"p.\\41 *.\u00fc", 8,
    "expected class name", ⟨[(Term.ofName "p").withClass "\\41", .wildcard]⟩⟩ := rfl
  obtain ⟨-, -, -, -, hsplits⟩ := compileStrict_error_splits herror
  obtain ⟨hid, -⟩ | ⟨-, earlier, last, hterms, -, -, hname⟩ | ⟨hno | hno, -⟩ :=
    hsplits "p.\\41 *." "\u00fc" rfl rfl
  · exact absurd hid (by decide)
  · have hterms : [(Term.ofName "p").withClass "\\41"] ++ [Term.wildcard] = earlier ++ [last] :=
      hterms
    obtain ⟨rfl, hlast⟩ := List.append_inj' hterms rfl
    obtain rfl := (List.cons.inj hlast).1
    exact ⟨herror, rfl, rfl, hname "x" rfl⟩
  · exact absurd hno (by decide)
  · exact absurd hno (by decide)

end DomSelect
