import DomSelect.Proofs.Selector.Automaton
import DomSelect.Proofs.Selector.Compiling
import DomSelect.Proofs.Selector.Windows

/-!
# Running a scanner step by step

`Scanner.run` runs steps, whether they emit something or not. What a step keeps and what it uses up
is said once (`leads_step`, `weight_step`) and then holds of every run: the scanner stays ready, it
passes characters and emits tokens of its stream, and fewer steps are left.

So a run by offsets never fails and comes to the same (`Cursor.run_eq`), and after a number of steps
that the selector bounds every scanner is done (`done_run`). `scanner_keeps_to_selector` says what
this means for a selector, and `window_ends_inside_character` that not every window of bytes may be
asked where it ends.
-/

namespace DomSelect

/-- Some characters that are passed leave the others where they stand. -/
theorem Scanner.Passes.stands {text : String} {scanner after : Scanner} (h : Passes scanner after)
    (hs : Stands text scanner.position scanner.rest) : Stands text after.position after.rest := by
  obtain ⟨taken, hrest, hposition⟩ := h
  rw [hrest] at hs
  rw [hposition]
  exact hs.advance

namespace Scanner

variable {isAlphanumeric : Char → Bool} {scanner now after : Scanner} {emitted others : List Token}
  {count : Nat}

/-- Run the present state a number of times: the tokens emitted, and the scanner after it. -/
def run (isAlphanumeric : Char → Bool) : Nat → Scanner → List Token × Scanner
  | 0, scanner => ([], scanner)
  | count + 1, scanner =>
    let (emitted, between) := scanner.step isAlphanumeric
    let (others, after) := run isAlphanumeric count between
    (emitted.toList ++ others, after)

theorem run_succ (count : Nat) (scanner : Scanner) :
    run isAlphanumeric (count + 1) scanner =
      ((scanner.step isAlphanumeric).1.toList ++
          (run isAlphanumeric count (scanner.step isAlphanumeric).2).1,
        (run isAlphanumeric count (scanner.step isAlphanumeric).2).2) := rfl

/-! ## What steps keep -/

/-- What steps come to that emit these tokens. -/
structure Leads (isAlphanumeric : Char → Bool) (scanner : Scanner) (emitted : List Token)
    (after : Scanner) : Prop where
  ready : after.Ready
  passes : Passes scanner after
  tokens : scanner.tokens isAlphanumeric = emitted ++ after.tokens isAlphanumeric

theorem leads_refl (hr : scanner.Ready) : Leads isAlphanumeric scanner [] scanner where
  ready := hr
  passes := ⟨[], rfl, rfl⟩
  tokens := rfl

theorem Leads.trans (h : Leads isAlphanumeric scanner emitted now)
    (ha : Leads isAlphanumeric now others after) :
    Leads isAlphanumeric scanner (emitted ++ others) after where
  ready := ha.ready
  passes := h.passes.trans ha.passes
  tokens := by rw [h.tokens, ha.tokens, List.append_assoc]

theorem step_of_done (hd : scanner.state = .done) :
    scanner.step isAlphanumeric = (none, scanner) := by
  unfold step
  rw [hd]

theorem leads_step (hr : scanner.Ready) :
    Leads isAlphanumeric scanner (scanner.step isAlphanumeric).1.toList
      (scanner.step isAlphanumeric).2 := by
  by_cases hd : scanner.state = .done
  · rw [step_of_done hd]
    exact leads_refl hr
  · cases hstep : scanner.step isAlphanumeric with
    | mk answer after =>
      have hadvances := advances_step hr hd hstep
      refine ⟨hadvances.ready, (moves_step hd hstep).passes, ?_⟩
      cases answer with
      | none => exact tokens_of_silent hstep hr hd
      | some token => exact tokens_of_emits hstep hr hd

theorem leads_run (hr : scanner.Ready) (count : Nat) :
    Leads isAlphanumeric scanner (run isAlphanumeric count scanner).1
      (run isAlphanumeric count scanner).2 := by
  induction count generalizing scanner with
  | zero => exact leads_refl hr
  | succ count ih =>
    have hstep : Leads isAlphanumeric scanner _ _ := leads_step hr
    exact hstep.trans (ih hstep.ready)

/-! ## What steps use up -/

/-- A bound on the steps that are left: the silent ones before the next token, and three for each
token. -/
def weight (scanner : Scanner) : Nat := 3 * scanner.need + silence scanner.state

theorem weight_of_done (hd : scanner.state = .done) : scanner.weight = 0 := by
  unfold weight need
  rw [hd]
  rfl

theorem weight_step (hr : scanner.Ready) :
    (scanner.step isAlphanumeric).2.weight ≤ scanner.weight - 1 := by
  by_cases hd : scanner.state = .done
  · rw [step_of_done hd, weight_of_done hd]
  · cases hstep : scanner.step isAlphanumeric with
    | mk answer after =>
      have hadvances := advances_step hr hd hstep
      have hneed := hadvances.need
      have hsilence := silence_le after.state
      unfold weight
      dsimp only
      cases answer with
      | none =>
        have hless := hadvances.silence rfl
        rw [Option.toList_none, List.length_nil] at hneed
        omega
      | some token =>
        rw [Option.toList_some, List.length_singleton] at hneed
        omega

/-- A scanner is done after as many steps as its weight. -/
theorem done_run (hr : scanner.Ready) (hw : scanner.weight ≤ count) :
    (run isAlphanumeric count scanner).2.state = .done := by
  induction count generalizing scanner with
  | zero =>
    unfold weight at hw
    have hzero : scanner.need = 0 := by omega
    exact done_of_need_eq_zero hr hzero
  | succ count ih =>
    have hless : (scanner.step isAlphanumeric).2.weight ≤ scanner.weight - 1 := weight_step hr
    rw [run_succ]
    exact ih (leads_step hr).ready (by omega)

end Scanner

/-! ## Runs by offsets -/

open Scanner

variable {isAlphanumeric : Char → Bool} {text selector : String} {scanner : Scanner}

theorem Cursor.run_eq (hs : Stands text scanner.position scanner.rest) (hr : scanner.Ready)
    (count : Nat) :
    Cursor.run .accepted isAlphanumeric text count (.ofScanner scanner) =
      .ok ((scanner.run isAlphanumeric count).1,
        .ofScanner (scanner.run isAlphanumeric count).2) := by
  induction count generalizing scanner with
  | zero => rfl
  | succ count ih =>
    have hstep : Leads isAlphanumeric scanner _ _ := leads_step hr
    rw [Cursor.run, Cursor.step_eq hs hr, Fault.ok_bind, run_succ]
    unfold ofStep
    dsimp only
    rw [ih (hstep.passes.stands hs) hstep.ready]
    rfl

/-- In this state a scanner is at this mark, which it reads as a token of this kind. -/
inductive ReadsMark : State → Char → TokenKind → State → Prop
  | idPrefix : ReadsMark .idPrefix '#' .idPrefix .idName
  | classPrefix : ReadsMark .classPrefix '.' .classPrefix .className

/-- What holds of a scanner of a selector, however far it is. -/
structure Keeps (isAlphanumeric : Char → Bool) (selector : String) (now : Scanner) : Prop where
  /-- The position is in the selector. -/
  le_size : now.position ≤ selector.utf8ByteSize
  /-- A character begins there, or the selector ends. -/
  isValid : String.Pos.Raw.IsValid selector ⟨now.position⟩
  /-- The character there is the next one. -/
  char? : Offset.char? selector now.position = .ok now.rest.head?
  /-- No step goes back. -/
  position_le : now.position ≤ (now.step isAlphanumeric).2.position
  /-- A mark is there where the state says so, and a step reads it and no more. -/
  mark : ∀ {c : Char} {kind : TokenKind} {next : State}, ReadsMark now.state c kind next →
    ∃ rest, now.rest = c :: rest ∧ now.step isAlphanumeric =
      (some ⟨kind, String.singleton c, now.position⟩, ⟨rest, now.position + 1, next⟩)
  /-- A call comes to an end. -/
  ends : ∃ answer after, Call isAlphanumeric now answer after

theorem ReadsMark.reads {state next : State} {c : Char} {kind : TokenKind} {rest : List Char}
    {position : Nat} (hm : ReadsMark state c kind next) (hr : Ready ⟨rest, position, state⟩) :
    ∃ others, rest = c :: others ∧ step isAlphanumeric ⟨rest, position, state⟩ =
      (some ⟨kind, String.singleton c, position⟩, ⟨others, position + 1, next⟩) := by
  cases hm with
  | idPrefix =>
    obtain ⟨others, rfl⟩ := List.head?_eq_some_iff.mp hr
    exact ⟨others, rfl, rfl⟩
  | classPrefix =>
    obtain ⟨others, rfl⟩ := List.head?_eq_some_iff.mp hr
    exact ⟨others, rfl, rfl⟩

theorem keeps_of_stands (hs : Stands selector scanner.position scanner.rest)
    (hr : scanner.Ready) : Keeps isAlphanumeric selector scanner where
  le_size := hs.le_size
  isValid := hs.isValid
  char? := hs.char?_eq
  position_le := by
    have hstep : Leads isAlphanumeric scanner _ _ := leads_step hr
    obtain ⟨taken, -, hposition⟩ := hstep.passes
    rw [hposition]
    exact Nat.le_add_right ..
  mark hm := hm.reads hr
  ends := Call.exists_call isAlphanumeric hr

theorem stands_ofSelector (selector : String) :
    Stands selector (ofSelector selector).position (ofSelector selector).rest :=
  ⟨[], rfl, rfl⟩

/-- **A scanner keeps to its selector, and comes to an end.** However many steps are run, none of
their accesses fails, the position is that of a character or the end and does not go back, marks are
where the states say so, and the next call comes to an end. After six steps for each byte and four
more the scanner is done. It has then emitted at most two tokens for each byte and the terminal one,
and a chain has at most one term for each byte.

All accesses begin and end at characters, but for windows of bytes that are no escape: if these are
asked too, the only failure is that one of them ends inside a character. -/
theorem scanner_keeps_to_selector (selector : String) :
    (∀ count, ∃ emitted now,
      run Unicode.isAlphanumeric count (.ofSelector selector) = (emitted, now) ∧
      Cursor.run .accepted Unicode.isAlphanumeric selector count ⟨0, .start⟩ =
        .ok (emitted, ⟨now.position, now.state⟩) ∧
      (Cursor.run .taken Unicode.isAlphanumeric selector count ⟨0, .start⟩ =
          .ok (emitted, ⟨now.position, now.state⟩) ∨
        ∃ stop, Cursor.run .taken Unicode.isAlphanumeric selector count ⟨0, .start⟩ =
          .error (.inside stop)) ∧
      Keeps Unicode.isAlphanumeric selector now ∧ emitted <+: tokenize selector) ∧
    (run Unicode.isAlphanumeric (6 * selector.utf8ByteSize + 4) (.ofSelector selector)).2.state =
      .done ∧
    (tokenize selector).length ≤ 2 * selector.utf8ByteSize + 1 ∧
    (compile selector).length ≤ selector.utf8ByteSize := by
  have hs := stands_ofSelector selector
  have hr : (ofSelector selector).Ready := trivial
  have hlength := length_le_utf8ByteSize selector
  have htokens := length_tokenize_le selector
  refine ⟨fun count => ?_, ?_, by omega, (length_compile_le selector).trans hlength⟩
  · have hleads : Leads Unicode.isAlphanumeric (ofSelector selector) _ _ := leads_run hr count
    have hrun : Cursor.run .accepted Unicode.isAlphanumeric selector count ⟨0, .start⟩ = _ :=
      Cursor.run_eq hs hr count
    have hstricter := Cursor.run_stricter Unicode.isAlphanumeric selector count ⟨0, .start⟩
    exact ⟨_, _, rfl, hrun, hstricter.imp_left (·.trans hrun),
      keeps_of_stands (hleads.passes.stands hs) hleads.ready, _, hleads.tokens.symm⟩
  · have hneed : (ofSelector selector).need = 2 * selector.length + 1 := by
      rw [← String.length_toList]
      rfl
    have hsilence : silence (ofSelector selector).state = 1 := rfl
    refine done_run hr ?_
    unfold weight
    omega

/-- Behind the `#`, four bytes are looked at as a fixed escape, up to the offset 5 in the middle of
the `ü`. They are none, and the identifier ends at the offset 4. -/
theorem window_ends_inside_character :
    Offset.acceptsWindow .accepted "#\\2aü" 1 4 Ident.startsFixedEscape = .ok false ∧
    ¬ String.Pos.Raw.IsValid "#\\2aü" ⟨1 + 4⟩ ∧
    Cursor.run .taken Unicode.isAlphanumeric "#\\2aü" 3 ⟨0, .start⟩ = .error (.inside 5) ∧
    Cursor.run .accepted Unicode.isAlphanumeric "#\\2aü" 3 ⟨0, .start⟩ =
      .ok ([⟨.idPrefix, "#", 0⟩, ⟨.id, "\\2a", 1⟩], ⟨4, .start⟩) := by
  decide

end DomSelect
