import PathCover.CommandLine.Run
import PathCover.Proofs.Tree.Start

/-!
# What filtering leaves of a report

Filtering goes once through a report, in the order in which things were found.  A diagnostic that is
still there when its turn comes acts: it takes out what it shadows, before it and after it.  What is
left is what no acting diagnostic shadows.

Shadowing runs in no circles, since a diagnostic only shadows one that starts later, or at the same
place and explains less; and only errors shadow anything.  So filtering leaves something of every
report that says something, and an error of every report with errors.
-/

namespace PathCover

/-! ## Shadowing -/

/-- How far down a kind stands among those at one place: what is missing explains a group that is
left open, and both explain everything else. -/
def DiagnosticKind.standing (kind : DiagnosticKind) : Nat :=
  if kind.isRootCause then kind.rank - 2
  else if kind.isStructural then kind.rank + 4
  else kind.rank

theorem DiagnosticKind.rank_le (kind : DiagnosticKind) : kind.rank ≤ 12 := by
  cases kind <;> decide

theorem DiagnosticKind.standing_lt (kind : DiagnosticKind) : kind.standing < 13 := by
  cases kind <;> decide

namespace Diagnostic

variable {diagnostic other : Diagnostic}

theorem shadows_of_start_eq (same : diagnostic.span.start = other.span.start) :
    diagnostic.shadows other = decide (diagnostic.kind.standing < other.kind.standing) := by
  have notEarlier : ¬(diagnostic.span.start < other.span.start ∧
      other.span.stop ≤ diagnostic.span.stop) := by
    rw [same]
    exact fun both => Nat.lt_irrefl _ both.1
  rw [shadows, if_neg notEarlier, if_neg (not_not_intro same)]
  cases diagnostic.kind <;> cases other.kind <;> rfl

theorem shadows_of_start_ne (apart : diagnostic.span.start ≠ other.span.start) :
    diagnostic.shadows other = true ↔
      (diagnostic.span.start < other.span.start ∧ other.span.stop ≤ diagnostic.span.stop) ∧
        diagnostic.kind.rank < other.kind.rank := by
  rw [shadows, if_pos apart]
  split
  · rename_i covers
    simp [DiagnosticKind.suppresses, covers]
  · rename_i covers
    simp [covers]

/-- A number that shadowing makes grow. -/
def order (diagnostic : Diagnostic) : Nat := 13 * diagnostic.span.start + diagnostic.kind.standing

theorem order_lt (shadowed : diagnostic.shadows other = true) :
    diagnostic.order < other.order := by
  have bound := diagnostic.kind.standing_lt
  by_cases same : diagnostic.span.start = other.span.start
  · rw [shadows_of_start_eq same, decide_eq_true_eq] at shadowed
    rw [order, order, same]
    exact Nat.add_lt_add_left shadowed _
  · have earlier := ((shadows_of_start_ne same).mp shadowed).1.1
    rw [order, order]
    omega

/-- Only errors shadow anything. -/
theorem isError_of_shadows (shadowed : diagnostic.shadows other = true) :
    diagnostic.isError = true := by
  cases kind : diagnostic.kind
  case predicateIgnored =>
    by_cases same : diagnostic.span.start = other.span.start
    · rw [shadows_of_start_eq same, decide_eq_true_eq, kind] at shadowed
      exact absurd shadowed (Nat.not_lt.mpr (Nat.le_of_lt_succ other.kind.standing_lt))
    · have outranks := ((shadows_of_start_ne same).mp shadowed).2
      rw [kind] at outranks
      exact absurd outranks (Nat.not_lt.mpr other.kind.rank_le)
  all_goals simp [isError, severity, kind, DiagnosticKind.severity]

end Diagnostic

namespace Report

/-- Whether a diagnostic of the report shadows the given one. -/
def hides (report : Report) (diagnostic : Diagnostic) : Bool := report.any (·.shadows diagnostic)

theorem hides_eq_true {report : Report} {diagnostic : Diagnostic} :
    report.hides diagnostic = true ↔ ∃ other ∈ report, other.shadows diagnostic = true :=
  List.any_eq_true

theorem hides_eq_false {report : Report} {diagnostic : Diagnostic} :
    report.hides diagnostic = false ↔ ∀ other ∈ report, other.shadows diagnostic = false := by
  simp [hides]

/-- What nothing in a report shadows, nothing in a part of it shadows. -/
theorem hides_of_subset {part report : Report} (subset : part ⊆ report) {diagnostic : Diagnostic}
    (shown : report.hides diagnostic = false) : part.hides diagnostic = false :=
  hides_eq_false.mpr fun other member => hides_eq_false.mp shown other (subset member)

/-- Behind everything that is shadowed stands something that is not.  It is an error if what it
explains is one. -/
theorem exists_unshadowed {report : Report} (diagnostic : Diagnostic)
    (member : diagnostic ∈ report) : ∃ root ∈ report, report.hides root = false ∧
      (diagnostic.isError = true → root.isError = true) := by
  induction size : diagnostic.order using Nat.strongRecOn generalizing diagnostic with
  | ind size ih =>
      cases hidden : report.hides diagnostic with
      | false => exact ⟨diagnostic, member, hidden, id⟩
      | true =>
          obtain ⟨other, isOther, shadowed⟩ := hides_eq_true.mp hidden
          obtain ⟨root, isRoot, isShown, explains⟩ :=
            ih other.order (size ▸ Diagnostic.order_lt shadowed) other isOther rfl
          exact ⟨root, isRoot, isShown, fun _ => explains (Diagnostic.isError_of_shadows shadowed)⟩

/-! ## Turn by turn -/

/-- The diagnostics of a report that act: those that none shadows of the ones that act before
them. -/
def acting : Report → Report
  | [] => []
  | diagnostic :: rest => diagnostic :: acting (diagnostic.spared rest)
termination_by report => report.length
decreasing_by exact Nat.lt_succ_of_le (diagnostic.length_spared_le rest)

theorem acting_subset (report : Report) : report.acting ⊆ report := by
  fun_induction acting report with
  | case1 => exact List.Subset.refl _
  | case2 diagnostic rest ih =>
      exact List.cons_subset_cons _ (List.Subset.trans ih List.filter_sublist.subset)

/-- What does not act was taken out by something that does. -/
theorem mem_acting_of_mem {report : Report} {diagnostic : Diagnostic} (member : diagnostic ∈ report)
    (left : report.acting.hides diagnostic = false) : diagnostic ∈ report.acting := by
  fun_induction acting report with
  | case1 => exact member
  | case2 first rest ih =>
      rw [hides_eq_false, List.forall_mem_cons, ← hides_eq_false] at left
      rcases List.mem_cons.mp member with rfl | later
      · exact List.mem_cons_self
      · refine List.mem_cons_of_mem _ (ih ?_ left.2)
        exact List.mem_filter.mpr ⟨later, by rw [left.1]; rfl⟩

/-- Going through a report leaves, of what was passed and what is still to come, what no diagnostic
shadows that is still to act. -/
theorem sweep_eq (kept rest : Report) :
    sweep kept rest = (kept ++ rest).filter (!rest.acting.hides ·) := by
  fun_induction sweep kept rest with
  | case1 kept =>
      rw [List.append_nil, List.filter_eq_self.mpr]
      simp [acting, hides]
  | case2 kept diagnostic rest ih =>
      have spared : diagnostic.spared (kept ++ diagnostic :: rest) =
          diagnostic.spared kept ++ [diagnostic] ++ diagnostic.spared rest := by
        simp [Diagnostic.spared, Diagnostic.shadows_self]
      have whole : diagnostic.spared (kept ++ diagnostic :: rest) =
          (kept ++ diagnostic :: rest).filter (!diagnostic.shadows ·) := rfl
      rw [ih, ← spared, whole, List.filter_filter, acting]
      refine List.filter_congr fun other _ => ?_
      simp [hides, Bool.and_comm]

theorem filtered_eq (report : Report) :
    report.filtered = report.filter (!report.acting.hides ·) :=
  sweep_eq [] report

theorem mem_filtered {report : Report} {diagnostic : Diagnostic} :
    diagnostic ∈ report.filtered ↔
      diagnostic ∈ report ∧ report.acting.hides diagnostic = false := by
  rw [filtered_eq, List.mem_filter, Bool.not_eq_true']

theorem filtered_subset_acting (report : Report) : report.filtered ⊆ report.acting := by
  intro diagnostic shown
  obtain ⟨member, left⟩ := mem_filtered.mp shown
  exact mem_acting_of_mem member left

theorem filtered_subset (report : Report) : report.filtered ⊆ report := fun _ shown =>
  (mem_filtered.mp shown).1

/-- What nothing in a report shadows is shown. -/
theorem mem_filtered_of_unshadowed {report : Report} {diagnostic : Diagnostic}
    (member : diagnostic ∈ report) (unshadowed : report.hides diagnostic = false) :
    diagnostic ∈ report.filtered :=
  mem_filtered.mpr ⟨member, hides_of_subset report.acting_subset unshadowed⟩

/-- What is shown shadows nothing else that is shown. -/
theorem hides_filtered {report : Report} {diagnostic : Diagnostic}
    (shown : diagnostic ∈ report.filtered) : report.filtered.hides diagnostic = false :=
  hides_of_subset report.filtered_subset_acting (mem_filtered.mp shown).2

/-- Where nothing is shadowed nothing is taken out. -/
theorem filtered_eq_self {report : Report}
    (unshadowed : ∀ diagnostic ∈ report, report.hides diagnostic = false) :
    report.filtered = report := by
  rw [filtered_eq, List.filter_eq_self]
  intro diagnostic member
  rw [hides_of_subset report.acting_subset (unshadowed diagnostic member)]
  rfl

/-! ## What is left -/

theorem hasErrors_iff {report : Report} :
    report.hasErrors = true ↔ ∃ diagnostic ∈ report, diagnostic.isError = true := by
  simp [hasErrors, errorCount]

theorem hasWarnings_iff {report : Report} :
    report.hasWarnings = true ↔ ∃ diagnostic ∈ report, diagnostic.isError = false := by
  simp [hasWarnings, warningCount]

theorem hasErrors_filtered (report : Report) : report.filtered.hasErrors = report.hasErrors := by
  rw [Bool.eq_iff_iff, hasErrors_iff, hasErrors_iff]
  constructor
  · rintro ⟨diagnostic, shown, isError⟩
    exact ⟨diagnostic, report.filtered_subset shown, isError⟩
  · rintro ⟨diagnostic, member, isError⟩
    obtain ⟨root, isRoot, unshadowed, explains⟩ := exists_unshadowed diagnostic member
    exact ⟨root, mem_filtered_of_unshadowed isRoot unshadowed, explains isError⟩

theorem filtered_eq_nil {report : Report} : report.filtered = [] ↔ report = [] := by
  constructor
  · intro nothing
    rw [List.eq_nil_iff_forall_not_mem]
    intro diagnostic member
    obtain ⟨root, isRoot, unshadowed, -⟩ := exists_unshadowed diagnostic member
    have shown := mem_filtered_of_unshadowed isRoot unshadowed
    rw [nothing] at shown
    cases shown
  · rintro rfl
    rw [filtered, sweep]

/-- A report says something exactly if it has errors or warnings. -/
theorem eq_nil_iff {report : Report} :
    report = [] ↔ report.hasErrors = false ∧ report.hasWarnings = false := by
  rw [← Bool.not_eq_true, ← Bool.not_eq_true, hasErrors_iff, hasWarnings_iff]
  constructor
  · rintro rfl
    exact ⟨by simp, by simp⟩
  · rintro ⟨noErrors, noWarnings⟩
    rw [List.eq_nil_iff_forall_not_mem]
    intro diagnostic member
    cases isError : diagnostic.isError with
    | true => exact noErrors ⟨diagnostic, member, isError⟩
    | false => exact noWarnings ⟨diagnostic, member, isError⟩

end Report

/-! ## What is told of invalid texts -/

/-- A text is refused with an error. -/
theorem hasErrors_of_invalid {outcome : Except Tree.Failure ParsedPath} {shown : Report}
    (refused : pathOfOutcome outcome = .error (.invalid shown)) : shown.hasErrors = true := by
  cases outcome with
  | error failure => cases refused
  | ok parsed =>
      rw [pathOfOutcome, ParsedPath.toPath] at refused
      cases valid : parsed.isValid with
      | true =>
          rw [valid] at refused
          cases refused
      | false =>
          rw [valid] at refused
          cases refused
          rw [ParsedPath.diagnostics, Report.hasErrors_filtered]
          exact Bool.not_eq_false' _ |>.mp valid

/-- A strict check succeeds on texts of which there is nothing to report. -/
theorem code_runCheck_strict {text : String} {parsed : ParsedPath}
    (isParsed : ParsedPath.parse .standard text = .ok parsed) (colored : Bool) :
    (CommandLine.runCheck colored text true).value.code = if parsed.report = [] then 0 else 1 := by
  have passes : (!parsed.diagnostics.hasErrors && !parsed.diagnostics.hasWarnings) =
      decide (parsed.report = []) := by
    rw [Bool.eq_iff_iff, decide_eq_true_eq, ← Report.filtered_eq_nil, Report.eq_nil_iff]
    simp [ParsedPath.diagnostics]
  have ran : (ParsedPath.parseLogged .standard text).value = .ok parsed := isParsed
  rw [CommandLine.runCheck, Logged.value_bind, ran]
  simp [passes]

/-- Filtering leaves diagnostics of a report in their order, none of which shadows another, and
filtering again leaves all of these.  There is an error among them exactly if the report has one,
and none are left only of none.  So a text is never refused without an error, and a strict check
fails exactly if there is anything to report. -/
theorem Report.filtered_keeps_errors (report : Report) :
    report.filtered.Sublist report ∧
      (∀ first ∈ report.filtered, ∀ second ∈ report.filtered, first.shadows second = false) ∧
      report.filtered.filtered = report.filtered ∧
      report.filtered.hasErrors = report.hasErrors ∧
      (report.filtered = [] ↔ report = []) ∧
      (∀ (outcome : Except Tree.Failure ParsedPath) (shown : Report),
        pathOfOutcome outcome = .error (.invalid shown) → shown.hasErrors = true) ∧
      ∀ (terminal : Bool) (contents : Except FileFault ByteArray) (text : String)
          (color : CommandLine.ColorChoice) (parsed : ParsedPath),
        ParsedPath.parse .standard text = .ok parsed →
          ((CommandLine.Command.check text true color).run terminal contents).value.code =
            if parsed.report = [] then 0 else 1 := by
  refine ⟨?_, ?_, ?_, report.hasErrors_filtered, filtered_eq_nil, ?_, ?_⟩
  · rw [filtered_eq]
    exact List.filter_sublist
  · intro first isFirst second isSecond
    exact hides_eq_false.mp (hides_filtered isSecond) first isFirst
  · exact filtered_eq_self fun _ shown => hides_filtered shown
  · exact fun _ _ refused => hasErrors_of_invalid refused
  · exact fun terminal _ _ color _ isParsed =>
      code_runCheck_strict isParsed (color.colors terminal)

/-- A text that is refused, and one of which only a warning is reported. -/
theorem Report.filtered_keeps_errors_texts :
    (∃ parsed shown, ParsedPath.parse .standard "/a[b" = .ok parsed ∧
      pathOfOutcome (.ok parsed) = .error (.invalid shown) ∧ shown.hasErrors = true) ∧
    ∃ parsed, ParsedPath.parse .standard "/a[1]" = .ok parsed ∧
      parsed.report.filtered.hasErrors = false ∧ parsed.report ≠ [] ∧
      ((CommandLine.Command.check "/a[1]" true .never).run false (.error .notFound)).value.code =
        1 := by
  constructor
  · obtain ⟨parsed, isParsed, invalid⟩ := ParsedPath.exists_of_toOption
      (by decide +kernel : (ParsedPath.parse .standard "/a[b").toOption.map
        ParsedPath.isValid = some false)
    have refused : pathOfOutcome (.ok parsed) = .error (.invalid parsed.diagnostics) := by
      rw [pathOfOutcome, ParsedPath.toPath, invalid]
      rfl
    obtain ⟨-, -, -, -, -, isError, -⟩ := filtered_keeps_errors parsed.report
    exact ⟨parsed, parsed.diagnostics, isParsed, refused, isError _ _ refused⟩
  · obtain ⟨parsed, isParsed, found⟩ := ParsedPath.exists_of_toOption
      (by decide +kernel : (ParsedPath.parse .standard "/a[1]").toOption.map
        (fun parsed => (parsed.report.hasErrors, decide (parsed.report = []))) =
          some (false, false))
    obtain ⟨noErrors, something⟩ := Prod.mk.inj found
    have reported : parsed.report ≠ [] := of_decide_eq_false something
    obtain ⟨-, -, -, sameErrors, -, -, strict⟩ := filtered_keeps_errors parsed.report
    refine ⟨parsed, isParsed, sameErrors.trans noErrors, reported, ?_⟩
    rw [strict false _ _ .never parsed isParsed, if_neg reported]

end PathCover
