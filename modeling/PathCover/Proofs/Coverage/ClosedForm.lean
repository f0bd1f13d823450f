import PathCover.Coverage.Walk

/-!
# The verdict on concrete candidates

A concrete candidate is a `/` and axis steps, with no `//` anywhere.  Against such a candidate the
walk has a closed form.  It depends on the pattern's leading separator and on the axis steps up to
its second separator; nothing behind these is ever reached.
-/

namespace PathCover.Coverage

/-- There is a cover for every step, and it covers the step. -/
def CoveredStepwise (steps covers : List AxisStep) : Prop :=
  steps.length ≤ covers.length ∧
    ∀ (i : Nat) (step cover : AxisStep), steps[i]? = some step → covers[i]? = some cover →
      step.coveredBy cover = true

/-- The closed form of the verdict.  Behind a leading `//` the steps up to the first one that the
first cover covers are skipped.  If there is none, only the last step is left, and it has to be
covered by the second cover. -/
def ConcreteVerdict (steps : List AxisStep) : Depth → List AxisStep → Prop
  | .child, covers => CoveredStepwise steps covers
  | .descendantOrSelf, [] => False
  | .descendantOrSelf, first :: later =>
      match steps.findIdx? (·.coveredBy first) with
      | some i => CoveredStepwise (steps.drop (i + 1)) later
      | none => ∃ last ∈ steps.getLast?, ∃ second ∈ later.head?, last.coveredBy second = true

/-- A separator stands neither last nor next to another one. -/
structure Separated (path : Path) : Prop where
  notLast : ∀ step ∈ path.getLast?, step.isSeparator = false
  notAdjacent : ∀ pair ∈ path.zip path.tail,
    pair.1.isSeparator = false ∨ pair.2.isSeparator = false

/-! ## Step by step -/

namespace CoveredStepwise

theorem nil (covers : List AxisStep) : CoveredStepwise [] covers := by
  constructor
  · exact Nat.zero_le _
  · intro i step cover isStep _
    cases isStep

theorem not_cons_nil (step : AxisStep) (steps : List AxisStep) :
    ¬ CoveredStepwise (step :: steps) [] := by
  intro covered
  cases covered.1

theorem cons_iff (step cover : AxisStep) (steps covers : List AxisStep) :
    CoveredStepwise (step :: steps) (cover :: covers) ↔
      step.coveredBy cover = true ∧ CoveredStepwise steps covers := by
  constructor
  · intro covered
    refine ⟨covered.2 0 step cover rfl rfl, Nat.le_of_succ_le_succ covered.1, ?_⟩
    intro i later laterCover isStep isCover
    exact covered.2 (i + 1) later laterCover isStep isCover
  · intro covered
    refine ⟨Nat.succ_le_succ covered.2.1, ?_⟩
    intro i later laterCover isStep isCover
    cases i with
    | zero =>
        cases isStep
        cases isCover
        exact covered.1
    | succ i => exact covered.2.2 i later laterCover isStep isCover

end CoveredStepwise

/-- In front of a separator of the pattern axis steps are not used up. -/
theorem walkFrom_boundary (steps : List AxisStep) (rest : Path) (c p : Nat)
    (boundary : ∀ step ∈ rest.head?, step.isSeparator = true) :
    (walkFrom (steps.map .axis) rest c p).covered = steps.isEmpty := by
  cases rest with
  | nil => cases steps <;> rfl
  | cons step rest =>
      have isSeparator := boundary step rfl
      cases step with
      | axis step => cases isSeparator
      | separator depth => cases depth <;> cases steps <;> rfl

/-- Against axis steps alone the walk compares step by step, and it ends where the pattern's next
separator stands. -/
theorem walkFrom_axes (steps covers : List AxisStep) (rest : Path) (c p : Nat)
    (boundary : ∀ step ∈ rest.head?, step.isSeparator = true) :
    (walkFrom (steps.map .axis) (covers.map .axis ++ rest) c p).covered = true ↔
      CoveredStepwise steps covers := by
  induction covers generalizing steps c p with
  | nil =>
      rw [List.map_nil, List.nil_append, walkFrom_boundary _ rest c p boundary]
      cases steps with
      | nil => exact ⟨fun _ => .nil _, fun _ => rfl⟩
      | cons step steps =>
          constructor
          · intro impossible
            cases impossible
          · intro covered
            exact absurd covered (CoveredStepwise.not_cons_nil step steps)
  | cons cover covers ih =>
      cases steps with
      | nil => exact ⟨fun _ => .nil _, fun _ => rfl⟩
      | cons step steps =>
          rw [CoveredStepwise.cons_iff, ← ih steps (c + 1) (p + 1)]
          simp only [List.map_cons, List.cons_append, walkFrom]
          split
          · rename_i isCovered
            simp [isCovered]
          · rename_i notCovered
            simp [notCovered, Walk.covered]

/-! ## Skipping ahead -/

/-- A skip stops right behind the first step that the target covers. -/
theorem skip_found (first : AxisStep) (front : Step) (steps : List AxisStep) (i : Nat)
    (found : steps.findIdx? (·.coveredBy first) = some i) :
    (skip (some (.axis first)) (front :: steps.map .axis)).left =
      (steps.drop (i + 1)).map .axis := by
  induction steps generalizing front i with
  | nil => cases found
  | cons step steps ih =>
      rw [List.findIdx?_cons] at found
      have isHit : hits (some (.axis first)) (.axis step) = step.coveredBy first := rfl
      rw [List.map_cons, skip, isHit]
      split at found
      · rename_i covered
        cases found
        rw [if_pos covered]
        rfl
      · rename_i notCovered
        rw [if_neg notCovered]
        obtain ⟨later, foundLater, rfl⟩ := Option.map_eq_some_iff.mp found
        exact ih (.axis step) later foundLater

/-- A skip that finds nothing stops in front of the last step. -/
theorem skip_missed (first : AxisStep) (front : Step) (steps : List AxisStep) (last : AxisStep)
    (missed : steps.findIdx? (·.coveredBy first) = none) (isLast : steps.getLast? = some last) :
    (skip (some (.axis first)) (front :: steps.map .axis)).left = [.axis last] := by
  induction steps generalizing front with
  | nil => cases isLast
  | cons step steps ih =>
      rw [List.findIdx?_cons] at missed
      have isHit : hits (some (.axis first)) (.axis step) = step.coveredBy first := rfl
      rw [List.map_cons, skip, isHit]
      split at missed
      · cases missed
      · rename_i notCovered
        rw [if_neg notCovered]
        cases steps with
        | nil =>
            cases isLast
            rfl
        | cons next steps =>
            exact ih (.axis step) (Option.map_eq_none_iff.mp missed) isLast

/-! ## The verdict -/

theorem lastCovered_iff (last : AxisStep) (covers : List AxisStep) :
    CoveredStepwise [last] covers ↔ ∃ cover ∈ covers.head?, last.coveredBy cover = true := by
  cases covers with
  | nil =>
      constructor
      · intro covered
        exact absurd covered (CoveredStepwise.not_cons_nil last [])
      · rintro ⟨_, ⟨⟩, _⟩
  | cons cover covers =>
      rw [CoveredStepwise.cons_iff]
      constructor
      · intro covered
        exact ⟨cover, rfl, covered.1⟩
      · rintro ⟨_, ⟨rfl⟩, covered⟩
        exact ⟨covered, .nil _⟩

theorem walk_concrete (steps : List AxisStep) (concrete : steps ≠ []) (leading : Depth)
    (first : AxisStep) (later : List AxisStep) (rest : Path)
    (boundary : ∀ step ∈ rest.head?, step.isSeparator = true) :
    (walk (.separator .child :: steps.map .axis)
        (.separator leading :: (first :: later).map .axis ++ rest)).covered = true ↔
      ConcreteVerdict steps leading (first :: later) := by
  cases leading with
  | child => exact walkFrom_axes steps (first :: later) rest 1 1 boundary
  | descendantOrSelf =>
      have isLast := List.getLast?_eq_some_getLast concrete
      rw [ConcreteVerdict]
      have skipped : (walk (.separator .child :: steps.map .axis)
          (.separator .descendantOrSelf :: (first :: later).map .axis ++ rest)).covered =
            (walkFrom (skip (some (.axis first)) (.separator .child :: steps.map .axis)).left
              (later.map .axis ++ rest)
              (0 + (skip (some (.axis first)) (.separator .child :: steps.map .axis)).moved)
              2).covered := rfl
      rw [skipped]
      cases found : steps.findIdx? (·.coveredBy first) with
      | some i =>
          rw [skip_found first _ steps i found]
          exact walkFrom_axes _ later rest _ _ boundary
      | none =>
          rw [skip_missed first _ steps _ found isLast]
          refine (walkFrom_axes [steps.getLast concrete] later rest _ _ boundary).trans ?_
          rw [isLast, lastCovered_iff]
          constructor
          · intro covered
            exact ⟨_, rfl, covered⟩
          · rintro ⟨_, ⟨rfl⟩, covered⟩
            exact covered

/-- A concrete candidate in front of a canonical absolute pattern, whose axis steps up to its second
separator are `covers`: the verdict has its closed form, and what is behind these steps has no
influence on it. -/
theorem check_concrete (steps : List AxisStep) (concrete : steps ≠ []) (leading : Depth)
    (covers : List AxisStep) (rest : Path)
    (boundary : ∀ step ∈ rest.head?, step.isSeparator = true)
    (separated : Separated (.separator leading :: covers.map .axis ++ rest)) :
    ∃ covered, check (.separator .child :: steps.map .axis)
        (.separator leading :: covers.map .axis ++ rest) = .ok covered ∧
      check (.separator .child :: steps.map .axis) (.separator leading :: covers.map .axis) =
        .ok covered ∧
      (covered = true ↔ ConcreteVerdict steps leading covers) := by
  obtain ⟨step, steps, rfl⟩ := List.exists_cons_of_ne_nil concrete
  cases covers with
  | nil =>
      cases rest with
      | nil => cases separated.notLast _ rfl
      | cons next rest =>
          have isSeparator := boundary next rfl
          rcases separated.notAdjacent (.separator leading, next) (.head _) with
            notFirst | notNext
          · cases notFirst
          · rw [isSeparator] at notNext
            cases notNext
  | cons first later =>
      have verdict := walk_concrete (step :: steps) concrete leading first later rest boundary
      have verdictAlone := walk_concrete (step :: steps) concrete leading first later []
        (by rintro _ ⟨⟩)
      rw [List.append_nil] at verdictAlone
      refine ⟨_, rfl, ?_, verdict⟩
      exact congrArg Except.ok (Bool.eq_iff_iff.mpr (verdictAlone.trans verdict.symm))

/-- `/TEI/text/body/p` in front of `//body/p//hi` -/
theorem check_concrete_skipping :
    let child (name : String) : AxisStep := ⟨.child, .name ⟨none, .named name⟩⟩
    let steps := [child "TEI", child "text", child "body", child "p"]
    let covers := [child "body", child "p"]
    let rest : Path := [.separator .descendantOrSelf, .axis (child "hi")]
    steps ≠ [] ∧ (∀ step ∈ rest.head?, step.isSeparator = true) ∧
      Separated (.separator .descendantOrSelf :: covers.map .axis ++ rest) ∧
      ∃ covered, check (.separator .child :: steps.map .axis)
          (.separator .descendantOrSelf :: covers.map .axis ++ rest) = .ok covered ∧
        check (.separator .child :: steps.map .axis)
          (.separator .descendantOrSelf :: covers.map .axis) = .ok covered ∧
        (covered = true ↔ ConcreteVerdict steps .descendantOrSelf covers) := by
  intro child steps covers rest
  have concrete : steps ≠ [] := List.cons_ne_nil _ _
  have boundary : ∀ step ∈ rest.head?, step.isSeparator = true := by
    rintro _ ⟨rfl⟩
    rfl
  have separated : Separated (.separator .descendantOrSelf :: covers.map .axis ++ rest) := by
    constructor
    · rintro _ ⟨rfl⟩
      rfl
    · decide
  exact ⟨concrete, boundary, separated,
    check_concrete steps concrete .descendantOrSelf covers rest boundary separated⟩

end PathCover.Coverage
