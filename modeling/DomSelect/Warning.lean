import DomSelect.Terminal

/-!
# Warnings

A warning names the component that raises it and a message. A log remembers the labels of the
warnings shown; a warning is printed only if its label is not among them. Clearing the log forgets
them all.
-/

namespace DomSelect

/-- A recoverable problem. -/
structure Warning where
  component : String
  message : String
  deriving DecidableEq, Repr, Inhabited

namespace Warning

/-- The label under which a warning is remembered. -/
def label (warning : Warning) : String :=
  "[" ++ warning.component ++ "] " ++ warning.message

/-- The printed line. -/
def line (warning : Warning) : String :=
  Terminal.yellowStart ++ "[Mechanize " ++ warning.component ++ "] warning: " ++ warning.message ++
    Terminal.reset ++ "\n"

end Warning

/-- The labels of the warnings shown since the log was last cleared. -/
structure WarningLog where
  shown : List String
  deriving DecidableEq, Repr, Inhabited

namespace WarningLog

/-- The log in which nothing was shown. -/
def empty : WarningLog := ⟨[]⟩

/-- Whether a warning with this label was shown. -/
def has (log : WarningLog) (warning : Warning) : Bool := log.shown.contains warning.label

/-- Show a warning unless its label was shown: the new log and the text printed. -/
def warn (log : WarningLog) (warning : Warning) : WarningLog × String :=
  if log.has warning then (log, "") else (⟨warning.label :: log.shown⟩, warning.line)

/-- Show several warnings in order. -/
def warnAll (log : WarningLog) : List Warning → WarningLog × String
  | [] => (log, "")
  | warning :: rest =>
    let (middle, first) := log.warn warning
    let (last, others) := middle.warnAll rest
    (last, first ++ others)

theorem warnAll_of_shown {log : WarningLog} {warnings : List Warning}
    (h : ∀ warning ∈ warnings, log.has warning = true) : log.warnAll warnings = (log, "") := by
  induction warnings with
  | nil => rfl
  | cons warning rest ih =>
    obtain ⟨hfirst, hrest⟩ := List.forall_mem_cons.mp h
    rw [warnAll, warn, if_pos hfirst]
    dsimp only
    rw [ih hrest]
    rfl

end WarningLog

end DomSelect
