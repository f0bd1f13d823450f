import PathCover.Diagnostic.Kind
import PathCover.Text.Span

/-!
# Diagnostics

A diagnostic says what is wrong at a stretch of the text of a path, and may point at related
stretches.  A report is a list of diagnostics in the order in which they were found.
-/

namespace PathCover

/-- A further stretch of text that a diagnostic points at. -/
structure Related where
  message : String
  span : Text.Span
  deriving DecidableEq, Inhabited

structure Diagnostic where
  kind : DiagnosticKind
  span : Text.Span
  message : String
  related : List Related
  deriving DecidableEq, Inhabited

namespace Diagnostic

/-- A diagnostic of a kind, with the kind's message and nothing related. -/
def plain (kind : DiagnosticKind) (span : Text.Span) (detail : Option String) : Diagnostic :=
  ⟨kind, span, kind.message detail, []⟩

def severity (diagnostic : Diagnostic) : Severity := diagnostic.kind.severity

def isError (diagnostic : Diagnostic) : Bool := diagnostic.severity = .error

/-- The written form of a related stretch. -/
def renderRelated (related : Related) : String :=
  " (related: " ++ related.message ++ " at " ++ related.span.render ++ ")"

/-- A diagnostic on one line, with the offsets of its span. -/
def render (diagnostic : Diagnostic) : String :=
  diagnostic.severity.render ++ " at " ++ diagnostic.span.render ++ ": " ++ diagnostic.message ++
    String.join (diagnostic.related.map renderRelated)

/-- Whether a diagnostic makes another one redundant.

If it starts earlier and covers the other, the kind of higher priority wins.  If both start at the
same place, something missing there explains a group that is left open, never the other way round,
and for other kinds the priority decides. -/
def shadows (diagnostic other : Diagnostic) : Bool :=
  if diagnostic.span.start < other.span.start ∧ other.span.stop ≤ diagnostic.span.stop then
    diagnostic.kind.suppresses other.kind
  else if diagnostic.span.start ≠ other.span.start then false
  else if diagnostic.kind.isRootCause ∧ other.kind.isStructural then true
  else if diagnostic.kind.isStructural ∧ other.kind.isRootCause then false
  else diagnostic.kind.suppresses other.kind

/-- No diagnostic shadows itself. -/
theorem shadows_self (diagnostic : Diagnostic) : diagnostic.shadows diagnostic = false := by
  obtain ⟨kind, span, message, related⟩ := diagnostic
  cases kind <;> simp [shadows, DiagnosticKind.suppresses, DiagnosticKind.isRootCause,
    DiagnosticKind.isStructural]

/-- The diagnostics of a report that `diagnostic` does not shadow. -/
def spared (diagnostic : Diagnostic) (report : List Diagnostic) : List Diagnostic :=
  report.filter (!diagnostic.shadows ·)

theorem length_spared_le (diagnostic : Diagnostic) (report : List Diagnostic) :
    (diagnostic.spared report).length ≤ report.length :=
  List.length_filter_le _ _

end Diagnostic

/-- Diagnostics in the order in which they were found. -/
abbrev Report := List Diagnostic

namespace Report

def errorCount (report : Report) : Nat := report.countP Diagnostic.isError

def warningCount (report : Report) : Nat := report.countP (!·.isError)

def hasErrors (report : Report) : Bool := 0 < report.errorCount

def hasWarnings (report : Report) : Bool := 0 < report.warningCount

/-- Goes through the diagnostics of `rest` in order.  Each one that is still there when its turn
comes removes those that it shadows, before it and after it. -/
def sweep (kept rest : Report) : Report :=
  match rest with
  | [] => kept
  | diagnostic :: rest =>
      sweep (diagnostic.spared kept ++ [diagnostic]) (diagnostic.spared rest)
termination_by rest.length
decreasing_by exact Nat.lt_succ_of_le (diagnostic.length_spared_le rest)

/-- The diagnostics worth showing, in order. -/
def filtered (report : Report) : Report := sweep [] report

/-- A report as lines of text. -/
def render (report : Report) : String :=
  "\n".intercalate (report.map Diagnostic.render)

end Report

end PathCover
