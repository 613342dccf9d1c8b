import DomSelect.Proofs.Session.Reports

/-!
# Warnings that share a label

The log compares warnings by their labels, and a label does not show where the component ends. Two
warnings share one if the component of the first goes on, after `] `, in the message of the second
(`Warning.Overlaps`), and never otherwise (`Warning.label_eq_iff`).

After any raising, asking and clearing the log knows the labels of the warnings raised since it was
last cleared (`Session.has_logAfter_iff`). So a warning that was raised is known, and one that was not
raised is taken for one exactly if a warning that overlaps with it was
(`Session.raised_since_clear_iff`).
-/

namespace DomSelect

/-! ## Labels -/

namespace Warning

variable {warning other : Warning}

/-- The longer component holds the shorter one, `] ` and the text in front of the last `] ` of what
the label says behind the shorter one. -/
def Overlaps (warning other : Warning) : Prop :=
  ∃ middle, other.component = warning.component ++ "] " ++ middle ∧
    warning.message = middle ++ "] " ++ other.message

/-- What remains of a label behind its component begins with `] `; it can also begin with text that
ends in `] `, if this text does so as well. -/
theorem bracket_eq_append_iff {rest message text : List Char} :
    ']' :: ' ' :: message = rest ++ ']' :: ' ' :: text ↔
      rest = [] ∧ message = text ∨
        ∃ middle, rest = ']' :: ' ' :: middle ∧ message = middle ++ ']' :: ' ' :: text := by
  match rest with
  | [] => simp
  | [last] => simp
  | bracket :: blank :: middle =>
    simp only [List.cons_append, List.cons.injEq, reduceCtorEq, false_and, false_or]
    constructor
    · rintro ⟨rfl, rfl, rfl⟩
      exact ⟨middle, ⟨rfl, rfl, rfl⟩, rfl⟩
    · rintro ⟨_, ⟨rfl, rfl, rfl⟩, rfl⟩
      exact ⟨rfl, rfl, rfl⟩

theorem toList_label (warning : Warning) :
    warning.label.toList =
      '[' :: (warning.component.toList ++ ']' :: ' ' :: warning.message.toList) := by
  simp [label]

theorem overlaps_iff : warning.Overlaps other ↔
    ∃ middle : List Char, other.component.toList = warning.component.toList ++ ']' :: ' ' :: middle ∧
      warning.message.toList = middle ++ ']' :: ' ' :: other.message.toList := by
  constructor
  · rintro ⟨middle, hc, hm⟩
    refine ⟨middle.toList, ?_, ?_⟩
    · simp [hc]
    · simp [hm]
  · rintro ⟨middle, hc, hm⟩
    refine ⟨String.ofList middle, ?_, ?_⟩
    · apply String.toList_inj.mp
      simp [hc]
    · apply String.toList_inj.mp
      simp [hm]

theorem ext_toList (hc : warning.component.toList = other.component.toList)
    (hm : warning.message.toList = other.message.toList) : warning = other := by
  obtain ⟨component, message⟩ := warning
  obtain rfl := String.toList_inj.mp hc
  obtain rfl := String.toList_inj.mp hm
  rfl

theorem Overlaps.label_eq (h : warning.Overlaps other) : warning.label = other.label := by
  obtain ⟨middle, hc, hm⟩ := h
  simp only [label, hc, hm, String.append_assoc]

/-- **Shared labels.** Different warnings have the same label exactly if they overlap. -/
theorem label_eq_iff :
    warning.label = other.label ↔
      warning = other ∨ warning.Overlaps other ∨ other.Overlaps warning := by
  constructor
  · intro h
    have hchars := congrArg String.toList h
    rw [toList_label, toList_label, List.cons.injEq, and_iff_right rfl] at hchars
    -- one component begins with the other one
    rcases List.append_eq_append_iff.mp hchars with ⟨rest, hc, hrest⟩ | ⟨rest, hc, hrest⟩
    · rcases bracket_eq_append_iff.mp hrest with ⟨rfl, hm⟩ | ⟨middle, rfl, hm⟩
      · rw [List.append_nil] at hc
        exact .inl (ext_toList hc.symm hm)
      · exact .inr (.inl (overlaps_iff.mpr ⟨middle, hc, hm⟩))
    · rcases bracket_eq_append_iff.mp hrest with ⟨rfl, hm⟩ | ⟨middle, rfl, hm⟩
      · rw [List.append_nil] at hc
        exact .inl (ext_toList hc hm.symm)
      · exact .inr (.inr (overlaps_iff.mpr ⟨middle, hc, hm⟩))
  · rintro (rfl | h | h)
    · rfl
    · exact h.label_eq
    · exact h.label_eq.symm

end Warning

namespace Session

variable {byNumber : Char → Bool} {log : WarningLog} {warning : Warning} {request : Request}
  {before : List Request}

/-! ## Requests about warnings -/

/-- The requests that raise a warning, ask for one or clear the log. -/
inductive Request.OnWarnings : Request → Prop
  | warn (warning : Warning) : OnWarnings (.warn warning)
  | has (warning : Warning) : OnWarnings (.has warning)
  | clear : OnWarnings .clear

theorem performWith_warn (byNumber : Char → Bool) (log : WarningLog) (warning : Warning) :
    performWith byNumber log (.warn warning) =
      ⟨(log.warn warning).1, .done, if log.has warning then "" else warning.line⟩ := by
  have hraise : performWith byNumber log (.warn warning) =
      ⟨(log.warn warning).1, .done, (log.warn warning).2 ++ ""⟩ := rfl
  rw [hraise, String.append_empty, WarningLog.printed_warn]

/-- One request adds a label, or changes nothing, or clears the log. -/
theorem has_performWith_iff (hr : request.OnWarnings) :
    (performWith byNumber log request).log.has warning = true ↔
      (∃ raised : Warning, request = .warn raised ∧ raised.label = warning.label) ∨
        request ≠ .clear ∧ log.has warning = true := by
  cases hr with
  | warn raised =>
    rw [performWith_warn, WarningLog.has_warn_iff]
    simp
  | has asked =>
    show log.has warning = true ↔ _
    simp
  | clear =>
    show WarningLog.empty.has warning = true ↔ _
    simp [WarningLog.has, WarningLog.empty]

/-- The log holds the labels of the warnings raised since it was last cleared. -/
theorem has_logAfter_iff (hb : ∀ earlier ∈ before, earlier.OnWarnings) :
    (logAfter byNumber .empty before).has warning = true ↔
      ∃ raised, SinceClear (· = .warn raised) before ∧ raised.label = warning.label := by
  induction before using List.reverseRecOn with
  | nil =>
    apply iff_of_false nofun
    rintro ⟨raised, hs, -⟩
    exact not_sinceClear_nil _ hs
  | append_singleton before request ih =>
    rw [List.forall_mem_append] at hb
    rw [logAfter_concat, has_performWith_iff (hb.2 request List.mem_cons_self), ih hb.1]
    simp only [sinceClear_concat]
    constructor
    · rintro (⟨raised, he, hl⟩ | ⟨hne, raised, hs, hl⟩)
      · exact ⟨raised, .inl he, hl⟩
      · exact ⟨raised, .inr ⟨hne, hs⟩, hl⟩
    · rintro ⟨raised, he | ⟨hne, hs⟩, hl⟩
      · exact .inl ⟨raised, he, hl⟩
      · exact .inr ⟨hne, raised, hs, hl⟩

/-- **Which warnings count as shown.** After any raising, asking and clearing, asking for a warning
says whether raising it prints nothing; the answer is yes exactly if the warning itself or one that
overlaps with it was raised since the log was last cleared. So the answer is whether the warning itself
was raised, exactly if it was raised in case one that overlaps with it was; and that is so whenever no
component raised or asked for holds `] `. -/
theorem raised_since_clear_iff (byNumber : Char → Bool) (warning : Warning)
    (hb : ∀ earlier ∈ before, earlier.OnWarnings) :
    ∃ known : Bool,
      (∀ after, ∃ log, (runWith byNumber .empty (before ++ .has warning :: after))[before.length]? =
        some ⟨log, .verdict known, ""⟩) ∧
      (∀ after, ∃ log, (runWith byNumber .empty (before ++ .warn warning :: after))[before.length]? =
        some ⟨log, .done, if known then "" else warning.line⟩) ∧
      (known = true ↔ ∃ raised, SinceClear (· = .warn raised) before ∧
        (raised = warning ∨ raised.Overlaps warning ∨ warning.Overlaps raised)) ∧
      ((known = true ↔ SinceClear (· = .warn warning) before) ↔
        ∀ raised, SinceClear (· = .warn raised) before →
          raised.Overlaps warning ∨ warning.Overlaps raised →
          SinceClear (· = .warn warning) before) ∧
      ((∀ raised, raised = warning ∨ SinceClear (· = .warn raised) before →
          ∀ front back, raised.component ≠ front ++ "] " ++ back) →
        (known = true ↔ SinceClear (· = .warn warning) before)) := by
  have hknown : (logAfter byNumber .empty before).has warning = true ↔
      ∃ raised, SinceClear (· = .warn raised) before ∧
        (raised = warning ∨ raised.Overlaps warning ∨ warning.Overlaps raised) := by
    rw [has_logAfter_iff hb]
    simp only [Warning.label_eq_iff]
  have hexact : ((logAfter byNumber .empty before).has warning = true ↔
        SinceClear (· = .warn warning) before) ↔
      ∀ raised, SinceClear (· = .warn raised) before →
        raised.Overlaps warning ∨ warning.Overlaps raised →
        SinceClear (· = .warn warning) before := by
    constructor
    · intro hiff raised hs ho
      exact hiff.mp (hknown.mpr ⟨raised, hs, .inr ho⟩)
    · intro hall
      constructor
      · intro hlog
        obtain ⟨raised, hs, rfl | ho⟩ := hknown.mp hlog
        · exact hs
        · exact hall raised hs ho
      · intro hs
        exact hknown.mpr ⟨warning, hs, .inl rfl⟩
  refine ⟨(logAfter byNumber .empty before).has warning, fun after => ?_, fun after => ?_, hknown,
    hexact, fun hplain => hexact.mpr ?_⟩
  · exact ⟨_, getElem?_runWith byNumber .empty before after (.has warning)⟩
  · have hreply := getElem?_runWith byNumber .empty before after (.warn warning)
    rw [performWith_warn] at hreply
    exact ⟨_, hreply⟩
  · rintro raised hs (⟨middle, hc, -⟩ | ⟨middle, hc, -⟩)
    · exact absurd hc (hplain warning (.inl rfl) _ _)
    · exact absurd hc (hplain raised (.inr hs) _ _)

/-- A warning whose component ends in a bracket, and the log cleared before another one is raised. -/
def raisedBeforeBracket : List Request :=
  [.warn ⟨"a", "b] c"⟩, .clear, .has ⟨"a", "b] c"⟩, .warn ⟨"a] b", "c"⟩]

/-- What was raised since the log was cleared overlaps with what is asked for, so this is taken for
shown. -/
theorem raised_since_clear_bracket :
    (∀ earlier ∈ raisedBeforeBracket, earlier.OnWarnings) ∧
      (Warning.mk "a" "b] c").Overlaps ⟨"a] b", "c"⟩ ∧
      (∃ log, (runWith (fun _ => false) .empty
        (raisedBeforeBracket ++ [.has ⟨"a", "b] c"⟩]))[4]? = some ⟨log, .verdict true, ""⟩) ∧
      ∃ log, (runWith (fun _ => false) .empty
        (raisedBeforeBracket ++ [.warn ⟨"a", "b] c"⟩]))[4]? = some ⟨log, .done, ""⟩ := by
  have hb : ∀ earlier ∈ raisedBeforeBracket, earlier.OnWarnings := by
    unfold raisedBeforeBracket
    simp only [List.forall_mem_cons]
    exact ⟨.warn _, .clear, .has _, .warn _, List.forall_mem_nil _⟩
  have ho : (Warning.mk "a" "b] c").Overlaps ⟨"a] b", "c"⟩ := ⟨"b", rfl, rfl⟩
  have hs : SinceClear (· = .warn ⟨"a] b", "c"⟩) raisedBeforeBracket :=
    ⟨[.warn ⟨"a", "b] c"⟩, .clear, .has ⟨"a", "b] c"⟩], _, [], rfl, rfl, List.not_mem_nil⟩
  obtain ⟨known, hhas, hwarn, hknown, -⟩ :=
    raised_since_clear_iff (fun _ => false) (Warning.mk "a" "b] c") hb
  obtain rfl : known = true := hknown.mpr ⟨_, hs, .inr (.inr ho)⟩
  exact ⟨hb, ho, hhas [], hwarn []⟩

/-- The second warning was never raised: it counts as shown all the same, and raising it prints
nothing. -/
theorem unraised_suppressed :
    ¬ SinceClear (· = .warn ⟨"a", "b] c"⟩) [.warn ⟨"a] b", "c"⟩] ∧
      (runWith (fun _ => false) .empty [.warn ⟨"a] b", "c"⟩, .has ⟨"a", "b] c"⟩])[1]? =
        some ⟨⟨["[a] b] c"]⟩, .verdict true, ""⟩ ∧
      (runWith (fun _ => false) .empty [.warn ⟨"a] b", "c"⟩, .warn ⟨"a", "b] c"⟩])[1]? =
        some ⟨⟨["[a] b] c"]⟩, .done, ""⟩ := by
  refine ⟨?_, by decide +kernel, by decide +kernel⟩
  rintro ⟨first, request, later, he, rfl, -⟩
  have hm : Request.warn ⟨"a", "b] c"⟩ ∈ [Request.warn ⟨"a] b", "c"⟩] :=
    he ▸ List.mem_append_right _ List.mem_cons_self
  simp at hm

end Session

end DomSelect
