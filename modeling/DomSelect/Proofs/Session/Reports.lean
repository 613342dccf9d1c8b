import DomSelect.Proofs.Selector.Schedules
import DomSelect.Proofs.Text.Quoting
import DomSelect.Session
import Mathlib.Data.List.Induction

/-!
# Each malformed selector is reported once

A malformed selector that is read leniently raises a warning, and the log compares warnings by a
formatted text. A quotation can be read back, so warnings about different selectors have different
labels (`label_warningWith_inj`). After any requests the log therefore knows just the malformed
selectors that were read leniently since it was last cleared (`remembers_logAfter`), and only the
others are reported (`reported_once`).
-/

namespace DomSelect

variable {byNumber : Char → Bool} {error other : SyntaxError} {selector : String} {chain : Chain}
  {log : WarningLog} {warning shown : Warning}

/-! ## Warnings about selectors -/

/-- The warning about a selector with this error. -/
def SyntaxError.warningWith (byNumber : Char → Bool) (error : SyntaxError) : Warning :=
  ⟨"Selector", "selector " ++ Quoted.quoteWith byNumber error.selector ++ " truncated at byte " ++
    toString error.offset ++ ": " ++ error.expected⟩

/-- No two selectors have a label in common, whatever their errors are. -/
theorem label_warningWith_inj
    (h : (error.warningWith byNumber).label = (other.warningWith byNumber).label) :
    error.selector = other.selector := by
  have hchars := congrArg String.toList h
  simp only [Warning.label, SyntaxError.warningWith, Quoted.quoteWith, String.toList_append,
    String.toList_ofList, List.append_assoc, List.append_cancel_left_eq, List.cons_append,
    List.cons.injEq, true_and, List.nil_append] at hchars
  exact String.toList_inj.mp (Quoted.encode_append_inj hchars).1

theorem warningWith?_of_error (h : compileStrict selector = .error error) :
    (compileSelector selector).warningWith? byNumber selector =
      some (error.warningWith byNumber) := by
  obtain ⟨hc, rfl⟩ := error_of_compileStrict h
  rw [Compiled.warningWith?, hc]
  rfl

theorem warningWith?_of_ok (h : compileStrict selector = .ok chain) :
    (compileSelector selector).warningWith? byNumber selector = none := by
  unfold compileStrict Compiled.result at h
  unfold Compiled.warningWith?
  cases hc : (compileSelector selector).error with
  | none => rfl
  | some lexError => rw [hc] at h; cases h

theorem line_warningWith (h : error.selector = selector) :
    (error.warningWith byNumber).line =
      Terminal.yellowStart ++ "[Mechanize Selector] warning: selector " ++
        Quoted.quoteWith byNumber selector ++ " truncated at byte " ++ toString error.offset ++
        ": " ++ error.expected ++ Terminal.reset ++ "\n" := by
  subst h
  simp only [Warning.line, SyntaxError.warningWith, ← String.append_assoc]
  rfl

theorem Warning.line_ne_empty (warning : Warning) : warning.line ≠ "" := by
  intro h
  have hlength := congrArg String.length h
  simp [line] at hlength

/-! ## Logs -/

theorem WarningLog.has_warn_iff :
    (log.warn warning).1.has shown = true ↔
      warning.label = shown.label ∨ log.has shown = true := by
  unfold warn
  split
  · next h =>
    refine ⟨.inr, ?_⟩
    rintro (he | hs)
    · unfold has at h ⊢
      rwa [← he]
    · exact hs
  · unfold has
    rw [List.contains_iff_mem, List.contains_iff_mem, List.mem_cons, eq_comm]

theorem WarningLog.printed_warn :
    (log.warn warning).2 = if log.has warning then "" else warning.line := by
  unfold warn
  split <;> rfl

namespace Session

variable {request : Request} {before : List Request}

/-! ## Requests about selectors -/

/-- The requests that read selectors or clear the log. -/
inductive Request.OnSelectors : Request → Prop
  | compile (selector : String) : OnSelectors (.compile selector)
  | compilePiped (selector : String) : OnSelectors (.compilePiped selector)
  | compileStrict (selector : String) : OnSelectors (.compileStrict selector)
  | clear : OnSelectors .clear

/-- The request compiles the selector up to its first error, in one of the two ways. -/
def Request.ReadsLeniently (request : Request) (selector : String) : Prop :=
  request = .compile selector ∨ request = .compilePiped selector

/-- A request of this kind was performed, and the log has not been cleared since. -/
def SinceClear (kind : Request → Prop) (requests : List Request) : Prop :=
  ∃ first request later, requests = first ++ request :: later ∧ kind request ∧ .clear ∉ later

/-- The selector was read leniently, and the log has not been cleared since. -/
def ReadSinceClear (requests : List Request) (selector : String) : Prop :=
  SinceClear (·.ReadsLeniently selector) requests

theorem Request.ReadsLeniently.selector_unique {other : String}
    (h : request.ReadsLeniently selector) (ho : request.ReadsLeniently other) :
    selector = other := by
  rcases h with rfl | rfl <;> rcases ho with he | he <;> cases he <;> rfl

theorem Request.ReadsLeniently.ne_clear (h : request.ReadsLeniently selector) :
    request ≠ .clear := by
  rcases h with rfl | rfl <;> nofun

theorem not_sinceClear_nil (kind : Request → Prop) : ¬ SinceClear kind [] := by
  rintro ⟨first, request, later, he, _⟩
  cases first <;> cases he

theorem sinceClear_concat {kind : Request → Prop} :
    SinceClear kind (before ++ [request]) ↔
      kind request ∨ request ≠ .clear ∧ SinceClear kind before := by
  constructor
  · rintro ⟨first, found, later, he, hk, hc⟩
    rcases List.eq_nil_or_concat later with rfl | ⟨others, last, rfl⟩
    · obtain ⟨rfl, hlast⟩ := List.append_inj' he rfl
      cases hlast
      exact .inl hk
    · rw [List.concat_eq_append] at he hc
      rw [← List.cons_append, ← List.append_assoc] at he
      obtain ⟨rfl, hlast⟩ := List.append_inj' he rfl
      cases hlast
      rw [List.mem_append, List.mem_singleton, not_or] at hc
      exact .inr ⟨Ne.symm hc.2, first, found, others, rfl, hk, hc.1⟩
  · rintro (hk | ⟨hne, first, found, later, rfl, hk, hc⟩)
    · exact ⟨before, request, [], rfl, hk, List.not_mem_nil⟩
    · refine ⟨first, found, later ++ [request], by simp, hk, ?_⟩
      rw [List.mem_append, List.mem_singleton, not_or]
      exact ⟨hc, Ne.symm hne⟩

theorem not_readSinceClear_nil (selector : String) : ¬ ReadSinceClear [] selector :=
  not_sinceClear_nil (·.ReadsLeniently selector)

theorem readSinceClear_concat :
    ReadSinceClear (before ++ [request]) selector ↔
      request.ReadsLeniently selector ∨ request ≠ .clear ∧ ReadSinceClear before selector :=
  sinceClear_concat

/-! ## One request -/

theorem performWith_of_readsLeniently (h : request.ReadsLeniently selector) :
    performWith byNumber log request =
      keepChain byNumber log (compileSelector selector) selector := by
  rcases h with rfl | rfl
  · rfl
  · rw [performWith, compilePiped_eq]

/-- What a request about selectors does: it raises the warning about a malformed selector, or it
changes and prints nothing, or it clears the log. -/
theorem performWith_cases (byNumber : Char → Bool) (log : WarningLog) (h : request.OnSelectors) :
    (∃ selector error, request.ReadsLeniently selector ∧
      DomSelect.compileStrict selector = .error error ∧
      (performWith byNumber log request).log = (log.warn (error.warningWith byNumber)).1 ∧
      (performWith byNumber log request).printed = (log.warn (error.warningWith byNumber)).2) ∨
    ((∀ selector error, request.ReadsLeniently selector →
        DomSelect.compileStrict selector ≠ .error error) ∧ request ≠ .clear ∧
      (performWith byNumber log request).log = log ∧
      (performWith byNumber log request).printed = "") ∨
    request = .clear := by
  by_cases hl : ∃ selector, request.ReadsLeniently selector
  · obtain ⟨selector, hr⟩ := hl
    have hperform : performWith byNumber log request = _ := performWith_of_readsLeniently hr
    cases hs : DomSelect.compileStrict selector with
    | error error =>
      rw [keepChain, warningWith?_of_error hs] at hperform
      rw [hperform]
      exact .inl ⟨selector, error, hr, hs, rfl, String.append_empty⟩
    | ok chain =>
      rw [keepChain, warningWith?_of_ok hs] at hperform
      rw [hperform]
      refine .inr (.inl ⟨fun other error ho => ?_, hr.ne_clear, rfl, rfl⟩)
      rw [ho.selector_unique hr, hs]
      nofun
  · cases h with
    | compile selector => exact absurd ⟨selector, .inl rfl⟩ hl
    | compilePiped selector => exact absurd ⟨selector, .inr rfl⟩ hl
    | compileStrict selector =>
      exact .inr (.inl ⟨fun other _ ho => absurd ⟨other, ho⟩ hl, nofun, rfl, rfl⟩)
    | clear => exact .inr (.inr rfl)

/-! ## Many requests -/

/-- The log after requests. -/
def logAfter (byNumber : Char → Bool) (log : WarningLog) (requests : List Request) : WarningLog :=
  requests.foldl (fun log request => (performWith byNumber log request).log) log

theorem logAfter_concat (byNumber : Char → Bool) (log : WarningLog) (before : List Request)
    (request : Request) : logAfter byNumber log (before ++ [request]) =
      (performWith byNumber (logAfter byNumber log before) request).log :=
  List.foldl_append

/-- A request is answered with the log that those before it leave. -/
theorem getElem?_runWith (byNumber : Char → Bool) (log : WarningLog) (before after : List Request)
    (request : Request) : (runWith byNumber log (before ++ request :: after))[before.length]? =
      some (performWith byNumber (logAfter byNumber log before) request) := by
  induction before generalizing log with
  | nil => rfl
  | cons earlier before ih => exact ih _

/-- The malformed selectors whose warnings are in the log are those read leniently since it was last
cleared. -/
def Remembers (byNumber : Char → Bool) (log : WarningLog) (before : List Request) : Prop :=
  ∀ selector error, DomSelect.compileStrict selector = .error error →
    (log.has (error.warningWith byNumber) = true ↔ ReadSinceClear before selector)

/-- One request keeps this up. -/
theorem Remembers.step (h : Remembers byNumber log before) (hs : request.OnSelectors) :
    Remembers byNumber (performWith byNumber log request).log (before ++ [request]) := by
  intro selector error he
  rw [readSinceClear_concat, ← h selector error he]
  rcases performWith_cases byNumber log hs with
    ⟨other, error', hr, he', hlog, -⟩ | ⟨hok, hne, hlog, -⟩ | rfl
  · -- the label is the new one exactly if the selector is the one that was read
    have hsame : (error'.warningWith byNumber).label = (error.warningWith byNumber).label ↔
        request.ReadsLeniently selector := by
      constructor
      · intro hl
        have heq := label_warningWith_inj hl
        rw [(error_of_compileStrict he').2, (error_of_compileStrict he).2] at heq
        exact heq ▸ hr
      · intro hr'
        obtain rfl := hr'.selector_unique hr
        rw [he] at he'
        cases he'
        rfl
    rw [hlog, WarningLog.has_warn_iff, hsame]
    simp [hr.ne_clear]
  · have hnot : ¬ request.ReadsLeniently selector := fun hr => hok selector error hr he
    rw [hlog]
    simp [hnot, hne]
  · have hnot : ¬ Request.clear.ReadsLeniently selector := fun hr => hr.ne_clear rfl
    simp [performWith, WarningLog.has, WarningLog.empty, hnot]

theorem remembers_logAfter (byNumber : Char → Bool)
    (h : ∀ request ∈ before, request.OnSelectors) :
    Remembers byNumber (logAfter byNumber .empty before) before := by
  induction before using List.reverseRecOn with
  | nil =>
    intro selector error _
    exact iff_of_false nofun (not_readSinceClear_nil selector)
  | append_singleton before request ih =>
    rw [List.forall_mem_append] at h
    rw [logAfter_concat]
    exact (ih h.1).step (h.2 request List.mem_cons_self)

/-- A request prints nothing unless it is the first to read a malformed selector leniently. -/
theorem Remembers.printed_cases (h : Remembers byNumber log before) (hr : request.OnSelectors) :
    ((performWith byNumber log request).printed = "" ∧ ∀ selector error,
      request.ReadsLeniently selector → DomSelect.compileStrict selector = .error error →
      ReadSinceClear before selector) ∨
    ∃ selector error, request.ReadsLeniently selector ∧
      DomSelect.compileStrict selector = .error error ∧ ¬ ReadSinceClear before selector ∧
      (performWith byNumber log request).printed = (error.warningWith byNumber).line := by
  rcases performWith_cases byNumber log hr with
    ⟨read, error, hl, he, -, hp⟩ | ⟨hok, -, -, hp⟩ | rfl
  · rw [WarningLog.printed_warn] at hp
    cases hs : log.has (error.warningWith byNumber) with
    | true =>
      rw [hs] at hp
      refine .inl ⟨hp, fun selector _ hl' _ => ?_⟩
      rw [hl'.selector_unique hl]
      exact (h read error he).mp hs
    | false =>
      rw [hs] at hp
      refine .inr ⟨read, error, hl, he, fun hread => ?_, hp⟩
      rw [(h read error he).mpr hread] at hs
      cases hs
  · exact .inl ⟨hp, fun selector error hl he => absurd he (hok selector error hl)⟩
  · exact .inl ⟨rfl, fun selector _ hl _ => absurd rfl hl.ne_clear⟩

/-- **Each malformed selector is reported once.** Among requests that read selectors or clear the
log, a request prints something exactly if it reads a malformed selector leniently and none has read
this selector leniently since the log was last cleared. What it prints is a line with the selector in
quotes and the error that reading it strictly gives. This holds whichever characters are named by code
point in quotations. -/
theorem reported_once (byNumber : Char → Bool) (after : List Request)
    (hb : ∀ earlier ∈ before, earlier.OnSelectors) (hr : request.OnSelectors) :
    ∃ reply, (runWith byNumber .empty (before ++ request :: after))[before.length]? = some reply ∧
      (reply.printed ≠ "" ↔ ∃ selector error, request.ReadsLeniently selector ∧
        DomSelect.compileStrict selector = .error error ∧ ¬ ReadSinceClear before selector) ∧
      ∀ selector error, request.ReadsLeniently selector →
        DomSelect.compileStrict selector = .error error → ¬ ReadSinceClear before selector →
        reply.printed = Terminal.yellowStart ++ "[Mechanize Selector] warning: selector " ++
          Quoted.quoteWith byNumber selector ++ " truncated at byte " ++ toString error.offset ++
          ": " ++ error.expected ++ Terminal.reset ++ "\n" := by
  refine ⟨_, getElem?_runWith byNumber .empty before after request, ?_⟩
  rcases (remembers_logAfter byNumber hb).printed_cases hr with
    ⟨hp, hread⟩ | ⟨read, error, hl, he, hnot, hp⟩
  · refine ⟨iff_of_false (not_not_intro hp) ?_, fun selector error hl he hnot => ?_⟩
    · rintro ⟨selector, error, hl, he, hnot⟩
      exact hnot (hread selector error hl he)
    · exact absurd (hread selector error hl he) hnot
  · refine ⟨iff_of_true (hp ▸ Warning.line_ne_empty _) ⟨read, error, hl, he, hnot⟩, ?_⟩
    intro selector error' hl' he' _
    obtain rfl := hl'.selector_unique hl
    rw [he] at he'
    cases he'
    rw [hp, line_warningWith (error_of_compileStrict he).2]

/-- A mark alone read leniently, and one after a name read strictly. -/
def readingsOfMarks : List Request := [.compile "#", .compileStrict "p #"]

/-- Neither keeps the second selector from being reported: the first is another one, and reading
strictly does not count. -/
theorem reported_once_mark_after_name :
    (∀ earlier ∈ readingsOfMarks, earlier.OnSelectors) ∧
      (Request.compilePiped "p #").OnSelectors ∧
      ∃ reply, (runWith (fun _ => false) .empty
          (readingsOfMarks ++ [.compilePiped "p #"]))[2]? = some reply ∧
        reply.printed = "\x1b[33m[Mechanize Selector] warning: selector \"p #\" truncated at " ++
          "byte 3: expected id\x1b[0m\n" := by
  have hb : ∀ earlier ∈ readingsOfMarks, earlier.OnSelectors := by
    unfold readingsOfMarks
    rw [List.forall_mem_cons, List.forall_mem_singleton]
    exact ⟨.compile _, .compileStrict _⟩
  have hr : (Request.compilePiped "p #").OnSelectors := .compilePiped _
  have hread : ¬ ReadSinceClear readingsOfMarks "p #" := by
    rintro ⟨first, reading, later, he, hl, -⟩
    have hm : reading ∈ readingsOfMarks := he ▸ List.mem_append_right _ List.mem_cons_self
    rcases hl with rfl | rfl <;> simp [readingsOfMarks] at hm
  obtain ⟨reply, hreply, -, hp⟩ := reported_once (fun _ => false) [] hb hr
  have he : DomSelect.compileStrict "p #" =
      .error ⟨"p #", 3, "expected id", ⟨[.ofName "p"]⟩⟩ := rfl
  refine ⟨hb, hr, reply, hreply, (hp _ _ (.inr rfl) he hread).trans ?_⟩
  decide +kernel

end Session

end DomSelect
