import PathCover.Proofs.Diagnostic.Filter

/-!
# Filtering and the order of a report

What acts in a report may be taken out later on, and what it took out stays out.  So a diagnostic
can be missing that nothing shadows of what is shown, and what is shown can depend on the order in
which things were found.  Neither happens where each diagnostic comes behind those that shadow it.
Over all orders of a report, both happen exactly if something in it is shadowed, but only by what is
shadowed itself.
-/

namespace PathCover.Report

/-- What is missing after filtering is what something shadows that is shown. -/
def HiddenByShown (report : Report) : Prop :=
  report.filtered = report.filter (!report.filtered.hides ·)

/-- What is shadowed in the report is shadowed by something there that nothing shadows. -/
def Rooted (report : Report) : Prop :=
  ∀ diagnostic ∈ report, report.hides diagnostic = true →
    ∃ root ∈ report, report.hides root = false ∧ root.shadows diagnostic = true

variable {report order : Report}

theorem hides_congr {first second : Report} (same : ∀ other, other ∈ first ↔ other ∈ second)
    (diagnostic : Diagnostic) : first.hides diagnostic = second.hides diagnostic := by
  rw [Bool.eq_iff_iff, hides_eq_true, hides_eq_true]
  simp only [same]

theorem HiddenByShown.mem_filtered_iff (hidden : report.HiddenByShown) {diagnostic : Diagnostic} :
    diagnostic ∈ report.filtered ↔
      diagnostic ∈ report ∧ report.filtered.hides diagnostic = false := by
  have left : diagnostic ∈ report.filtered ↔
      diagnostic ∈ report.filter (!report.filtered.hides ·) := by rw [← hidden]
  rw [left, List.mem_filter, Bool.not_eq_true']

/-- It is enough that what is shown shadows the same as what decides on it. -/
theorem hiddenByShown_of_hides {part : Report}
    (decided : report.filtered = report.filter (!part.hides ·))
    (same : ∀ diagnostic ∈ report,
      part.hides diagnostic = report.filtered.hides diagnostic) : report.HiddenByShown :=
  decided.trans (List.filter_congr fun diagnostic member => by rw [same diagnostic member])

/-! ## Behind what shadows it -/

/-- Where nothing comes in front of what shadows it, nothing that acts is shadowed by what acts. -/
theorem hides_acting
    (behind : report.Pairwise fun earlier later => later.shadows earlier = false) :
    ∀ diagnostic ∈ report.acting, report.acting.hides diagnostic = false := by
  fun_induction acting report with
  | case1 => simp
  | case2 first rest ih =>
      rw [List.pairwise_cons] at behind
      have later : acting (first.spared rest) ⊆ first.spared rest := acting_subset _
      intro diagnostic member
      rw [hides_eq_false, List.forall_mem_cons, ← hides_eq_false]
      rcases List.mem_cons.mp member with rfl | member
      · refine ⟨diagnostic.shadows_self, hides_eq_false.mpr fun other acts => ?_⟩
        exact behind.1 other (List.mem_filter.mp (later acts)).1
      · refine ⟨?_, ih (behind.2.filter _) diagnostic member⟩
        simpa using (List.mem_filter.mp (later member)).2

theorem hiddenByShown_of_pairwise
    (behind : report.Pairwise fun earlier later => later.shadows earlier = false) :
    report.HiddenByShown := by
  have same : ∀ other, other ∈ report.acting ↔ other ∈ report.filtered := by
    intro other
    constructor
    · intro acts
      exact mem_filtered.mpr ⟨report.acting_subset acts, hides_acting behind other acts⟩
    · exact fun shown => report.filtered_subset_acting shown
  exact hiddenByShown_of_hides report.filtered_eq fun diagnostic _ => hides_congr same diagnostic

/-- Every report has an order in which what is missing is shadowed by what is shown. -/
theorem exists_order_hiddenByShown (report : Report) :
    ∃ order : Report, order.Perm report ∧ order.HiddenByShown := by
  refine ⟨report.mergeSort fun first second => first.order ≤ second.order,
    List.mergeSort_perm _ _, hiddenByShown_of_pairwise ?_⟩
  have sorted : (report.mergeSort fun first second => first.order ≤ second.order).Pairwise
      fun first second => decide (first.order ≤ second.order) = true :=
    List.pairwise_mergeSort (fun _ _ _ => by simpa using Nat.le_trans)
      (fun _ _ => by simpa using Nat.le_total _ _) report
  refine sorted.imp fun {first second} inOrder => ?_
  rw [decide_eq_true_eq] at inOrder
  rw [← Bool.not_eq_true]
  exact fun shadowed => absurd (Diagnostic.order_lt shadowed) (Nat.not_lt.mpr inOrder)

/-! ## Whatever the order -/

/-- What something shadows is missing in some order. -/
theorem exists_order_without {diagnostic other : Diagnostic} (member : other ∈ report)
    (shadowed : other.shadows diagnostic = true) :
    ∃ order : Report, order.Perm report ∧ diagnostic ∉ order.filtered := by
  refine ⟨other :: report.erase other, (List.perm_cons_erase member).symm, fun shown => ?_⟩
  have left := (mem_filtered.mp shown).2
  rw [acting, hides_eq_false] at left
  rw [left other List.mem_cons_self] at shadowed
  cases shadowed

/-- If the same is shown in every order, nothing that is shown is shadowed. -/
theorem unshadowed_of_shown
    (same : ∀ order : Report, order.Perm report → order.filtered.Perm report.filtered)
    {diagnostic : Diagnostic} (shown : diagnostic ∈ report.filtered) :
    report.hides diagnostic = false := by
  rw [hides_eq_false]
  intro other member
  rw [← Bool.not_eq_true]
  intro shadowed
  obtain ⟨order, isOrder, missing⟩ := exists_order_without member shadowed
  exact missing ((same order isOrder).mem_iff.mpr shown)

theorem rooted_of_same
    (same : ∀ order : Report, order.Perm report → order.filtered.Perm report.filtered) :
    report.Rooted := by
  intro diagnostic member hidden
  obtain ⟨order, isOrder, byShown⟩ := report.exists_order_hiddenByShown
  have missing : diagnostic ∉ order.filtered := by
    intro shown
    have unshadowed := unshadowed_of_shown same ((same order isOrder).mem_iff.mp shown)
    rw [unshadowed] at hidden
    cases hidden
  have hiddenThere : order.filtered.hides diagnostic = true := by
    rw [← Bool.not_eq_false]
    exact fun left => missing (byShown.mem_filtered_iff.mpr ⟨isOrder.mem_iff.mpr member, left⟩)
  obtain ⟨root, isShown, shadowed⟩ := hides_eq_true.mp hiddenThere
  have shown := (same order isOrder).mem_iff.mp isShown
  exact ⟨root, report.filtered_subset shown, unshadowed_of_shown same shown, shadowed⟩

theorem Rooted.perm (rooted : report.Rooted) (isOrder : order.Perm report) : order.Rooted := by
  have same := hides_congr fun _ => isOrder.mem_iff
  intro diagnostic member hidden
  rw [same] at hidden
  obtain ⟨root, isRoot, unshadowed, shadowed⟩ :=
    rooted diagnostic (isOrder.mem_iff.mp member) hidden
  exact ⟨root, isOrder.mem_iff.mpr isRoot, by rw [same, unshadowed], shadowed⟩

/-- Where everything that is shadowed is so by something that is not, the latter is shown. -/
theorem Rooted.filtered_eq (rooted : report.Rooted) :
    report.filtered = report.filter (!report.hides ·) := by
  rw [Report.filtered_eq]
  refine List.filter_congr fun diagnostic member => ?_
  congr 1
  cases hidden : report.hides diagnostic with
  | false => exact hides_of_subset report.acting_subset hidden
  | true =>
      obtain ⟨root, isRoot, unshadowed, shadowed⟩ := rooted diagnostic member hidden
      have acts := mem_acting_of_mem isRoot (hides_of_subset report.acting_subset unshadowed)
      exact hides_eq_true.mpr ⟨root, acts, shadowed⟩

theorem Rooted.hiddenByShown (rooted : report.Rooted) : report.HiddenByShown := by
  refine hiddenByShown_of_hides rooted.filtered_eq fun diagnostic member => ?_
  cases hidden : report.hides diagnostic with
  | false => exact (hides_of_subset report.filtered_subset hidden).symm
  | true =>
      obtain ⟨root, isRoot, unshadowed, shadowed⟩ := rooted diagnostic member hidden
      exact (hides_eq_true.mpr ⟨root, mem_filtered_of_unshadowed isRoot unshadowed, shadowed⟩).symm

/-- If in two orders what is missing is shadowed by what is shown, the same is shown in both. -/
theorem HiddenByShown.mem_filtered_congr (hidden : report.HiddenByShown)
    (hiddenToo : order.HiddenByShown) (isOrder : order.Perm report) (diagnostic : Diagnostic) :
    diagnostic ∈ order.filtered ↔ diagnostic ∈ report.filtered := by
  induction size : diagnostic.order using Nat.strongRecOn generalizing diagnostic with
  | ind size ih =>
      have earlier : ∀ other, other.shadows diagnostic = true →
          (other ∈ order.filtered ↔ other ∈ report.filtered) := fun other shadowed =>
        ih other.order (size ▸ Diagnostic.order_lt shadowed) other rfl
      have same : order.filtered.hides diagnostic = report.filtered.hides diagnostic := by
        rw [Bool.eq_iff_iff, hides_eq_true, hides_eq_true]
        constructor
        · rintro ⟨other, shown, shadowed⟩
          exact ⟨other, (earlier other shadowed).mp shown, shadowed⟩
        · rintro ⟨other, shown, shadowed⟩
          exact ⟨other, (earlier other shadowed).mpr shown, shadowed⟩
      rw [hidden.mem_filtered_iff, hiddenToo.mem_filtered_iff, same, isOrder.mem_iff]

/-- Of two orders of a report the same is left if the same decides on it. -/
theorem perm_left (isOrder : order.Perm report) {first second : Report}
    (same : ∀ other, other ∈ first ↔ other ∈ second) :
    (order.filter (!first.hides ·)).Perm (report.filter (!second.hides ·)) := by
  have decided : (fun other => !first.hides other) = fun other => !second.hides other :=
    funext fun other => congrArg not (hides_congr same other)
  rw [decided]
  exact isOrder.filter _

theorem Rooted.same (rooted : report.Rooted) (isOrder : order.Perm report) :
    order.filtered.Perm report.filtered := by
  rw [(rooted.perm isOrder).filtered_eq, rooted.filtered_eq]
  exact perm_left isOrder fun _ => isOrder.mem_iff

theorem same_of_hiddenByShown
    (hidden : ∀ order : Report, order.Perm report → order.HiddenByShown)
    (isOrder : order.Perm report) : order.filtered.Perm report.filtered := by
  have hiddenHere := hidden report (List.Perm.refl report)
  have hiddenThere := hidden order isOrder
  rw [hiddenThere, hiddenHere]
  exact perm_left isOrder (hiddenHere.mem_filtered_congr hiddenThere isOrder)

/-- What is missing from a report after filtering is what something shadows that acts.  Nothing is
shown that something shown shadows.  Where each diagnostic comes behind those that shadow it, what
is missing is shadowed by what is shown, and every report can be put in such an order.  This is so
in every order, and in every order the same is shown, exactly if everything that is shadowed is so
by something that nothing shadows. -/
theorem filtered_by_turn (report : Report) :
    (∀ diagnostic ∈ report,
      (diagnostic ∉ report.filtered ↔ ∃ other ∈ report.acting, other.shadows diagnostic = true)) ∧
      (∀ diagnostic ∈ report,
        (∃ other ∈ report.filtered, other.shadows diagnostic = true) →
          diagnostic ∉ report.filtered) ∧
      (report.Pairwise (fun earlier later => later.shadows earlier = false) →
        report.HiddenByShown) ∧
      (∃ order : Report, order.Perm report ∧ order.HiddenByShown) ∧
      (report.Rooted ↔ ∀ order : Report, order.Perm report → order.HiddenByShown) ∧
      (report.Rooted ↔
        ∀ order : Report, order.Perm report → order.filtered.Perm report.filtered) := by
  refine ⟨?_, ?_, hiddenByShown_of_pairwise, exists_order_hiddenByShown report, ?_, ?_⟩
  · intro diagnostic member
    rw [mem_filtered, ← hides_eq_true]
    simp [member]
  · intro diagnostic _ byShown shown
    rw [← hides_eq_true, hides_filtered shown] at byShown
    cases byShown
  · constructor
    · exact fun rooted _ isOrder => (rooted.perm isOrder).hiddenByShown
    · exact fun hidden => rooted_of_same fun _ isOrder => same_of_hiddenByShown hidden isOrder
  · exact ⟨fun rooted _ isOrder => rooted.same isOrder, rooted_of_same⟩

/-- With an open predicate in front of a name that is missing in it and of a kind test that ends
behind it, each comes behind those that shadow it, and the name is hidden by the predicate, which is
shown.  If the kind test ends within the predicate, every order shows the predicate alone. -/
theorem filtered_by_turn_behind_predicate :
    let predicate := Diagnostic.plain .unclosedPredicate ⟨2, 9⟩ none
    let name := Diagnostic.plain .expectedName ⟨5, 6⟩ none
    let argument := Diagnostic.plain .invalidKindTestArgument ⟨5, 12⟩ none
    let within := Diagnostic.plain .invalidKindTestArgument ⟨5, 8⟩ none
    name ∉ filtered [predicate, name, argument] ∧
      HiddenByShown [predicate, name, argument] ∧
      Rooted [name, predicate, within] ∧
      (∀ order : Report, order.Perm [name, predicate, within] → order.HiddenByShown) ∧
      ∀ order : Report, order.Perm [name, predicate, within] →
        order.filtered.Perm [predicate] := by
  intro predicate name argument within
  obtain ⟨-, missing, byShown, -⟩ := filtered_by_turn [predicate, name, argument]
  obtain ⟨-, -, -, -, byShownInAll, sameInAll⟩ := filtered_by_turn [name, predicate, within]
  have shown : predicate ∈ filtered [predicate, name, argument] :=
    mem_filtered_of_unshadowed (by decide) (by decide)
  have rooted : Rooted [name, predicate, within] := by
    unfold Rooted
    decide
  have left : filtered [name, predicate, within] = [predicate] :=
    rooted.filtered_eq.trans (by decide)
  refine ⟨missing name (by decide) ⟨predicate, shown, by decide⟩, byShown (by decide), rooted,
    byShownInAll.mp rooted, ?_⟩
  intro order isOrder
  rw [← left]
  exact sameInAll.mp rooted order isOrder

/-- Of a name that is missing in an open predicate and a kind test whose argument is wrong and that
starts where the name is missing, the first takes out the third and goes itself.  With the predicate
in front, the third is shown. -/
theorem filtered_by_turn_not_by_shown :
    let name := Diagnostic.plain .expectedName ⟨5, 6⟩ none
    let predicate := Diagnostic.plain .unclosedPredicate ⟨2, 9⟩ none
    let argument := Diagnostic.plain .invalidKindTestArgument ⟨5, 12⟩ none
    filtered [name, predicate, argument] = [predicate] ∧
      predicate.shadows argument = false ∧
      ¬HiddenByShown [name, predicate, argument] ∧
      filtered [predicate, name, argument] = [predicate, argument] ∧
      ¬Rooted [name, predicate, argument] := by
  intro name predicate argument
  have ofNothing : ∀ diagnostic : Diagnostic, diagnostic.spared [] = [] := fun _ => rfl
  have nameFirst : filtered [name, predicate, argument] = [predicate] := by
    have byName : name.spared [predicate, argument] = [predicate] := by decide
    have byPredicate : predicate.spared [name] = [] := by decide
    simp [filtered, sweep, ofNothing, byName, byPredicate]
  have predicateFirst : filtered [predicate, name, argument] = [predicate, argument] := by
    have byPredicate : predicate.spared [name, argument] = [argument] := by decide
    have byArgument : argument.spared [predicate] = [predicate] := by decide
    simp [filtered, sweep, ofNothing, byPredicate, byArgument]
  have byShown : ¬HiddenByShown [name, predicate, argument] := by
    rw [HiddenByShown, nameFirst]
    decide
  refine ⟨nameFirst, by decide, byShown, predicateFirst, fun rooted => ?_⟩
  exact byShown rooted.hiddenByShown

end PathCover.Report
