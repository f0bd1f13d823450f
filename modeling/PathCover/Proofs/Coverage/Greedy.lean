import PathCover.Proofs.Coverage.ClosedForm
import PathCover.Proofs.Coverage.Placement

/-!
# Concrete paths that a pattern matches

A concrete path that meets the demand of a pattern is not always covered by it.  The walk takes the
first step that fits behind a leading `//` and never tries a later one, and it does not descend at
a `//` inside the pattern.  These two are the only reasons: without them every match is covered.
-/

namespace PathCover

open Coverage

/-- A path that starts with a separator and goes on, in which `/` stands at most at the front and
every separator is followed by an axis step. -/
structure Path.CanonicalAbsolute (path : Path) : Prop where
  absolute : path.isAbsolute = true
  childInFront : ∀ step ∈ path.tail, step ≠ .separator .child
  separated : Separated path

namespace Coverage

/-- What is separated stays so without its front. -/
theorem Separated.of_append (front : Path) {rest : Path}
    (separated : Separated (front ++ rest)) : Separated rest := by
  induction front with
  | nil => exact separated
  | cons first front ih =>
      apply ih
      rw [List.cons_append] at separated
      constructor
      · intro step isLast
        apply separated.notLast step
        rw [List.getLast?_cons, Option.mem_def.mp isLast]
        rfl
      · intro pair isPair
        apply separated.notAdjacent pair
        cases isRest : front ++ rest with
        | nil =>
            rw [isRest] at isPair
            cases isPair
        | cons next later =>
            rw [isRest] at isPair
            exact .tail _ isPair

/-- Where separators stand apart, each has an axis step behind it. -/
theorem Separated.exists_axis {depth : Depth} {rest : Path}
    (separated : Separated (.separator depth :: rest)) :
    ∃ (step : AxisStep) (later : Path), rest = .axis step :: later := by
  cases rest with
  | nil => cases separated.notLast _ rfl
  | cons next later =>
      cases next with
      | axis step => exact ⟨step, later, rfl⟩
      | separator other =>
          cases separated.notAdjacent (.separator depth, .separator other) (.head _) with
          | inl notFirst => cases notFirst
          | inr notSecond => cases notSecond

/-- Every path has axis steps in front, up to its end or to a separator. -/
theorem exists_axes (path : Path) :
    ∃ (steps : List AxisStep) (rest : Path), path = steps.map .axis ++ rest ∧
      ∀ step ∈ rest.head?, step.isSeparator = true := by
  induction path with
  | nil => exact ⟨[], [], rfl, by intro _ isHead; cases isHead⟩
  | cons step path ih =>
      cases step with
      | separator depth =>
          refine ⟨[], .separator depth :: path, rfl, ?_⟩
          intro step isHead
          cases isHead
          rfl
      | axis step =>
          obtain ⟨steps, rest, split, boundary⟩ := ih
          exact ⟨step :: steps, rest, congrArg (List.cons _) split, boundary⟩

end Coverage

/-- What can follow axis steps in a canonical absolute path: nothing, or a `//` and a step. -/
def Path.Descends (rest : Path) : Prop :=
  rest = [] ∨ ∃ (step : AxisStep) (later : Path),
    rest = .separator .descendantOrSelf :: .axis step :: later

theorem Path.Descends.boundary {rest : Path} (descends : rest.Descends) :
    ∀ step ∈ rest.head?, step.isSeparator = true := by
  intro step isHead
  cases descends with
  | inl nothing =>
      rw [nothing] at isHead
      cases isHead
  | inr more =>
      obtain ⟨_, _, isRest⟩ := more
      rw [isRest] at isHead
      cases isHead
      rfl

/-- A canonical absolute path is a separator, axis steps, and possibly a `//` and more. -/
theorem Path.CanonicalAbsolute.split {pattern : Path} (canonical : pattern.CanonicalAbsolute) :
    ∃ (leading : Depth) (first : AxisStep) (later : List AxisStep) (rest : Path),
      pattern = .separator leading :: (first :: later).map .axis ++ rest ∧ rest.Descends := by
  cases pattern with
  | nil => cases canonical.absolute
  | cons front path =>
      cases front with
      | axis step => cases canonical.absolute
      | separator leading =>
          obtain ⟨first, path, rfl⟩ := canonical.separated.exists_axis
          obtain ⟨later, rest, rfl, boundary⟩ := exists_axes path
          refine ⟨leading, first, later, rest, rfl, ?_⟩
          cases rest with
          | nil => exact .inl rfl
          | cons next rest =>
              have separated : Separated (next :: rest) :=
                canonical.separated.of_append (.separator leading :: (first :: later).map .axis)
              have isSeparator := boundary next rfl
              cases next with
              | axis step => cases isSeparator
              | separator depth =>
                  cases depth with
                  | child =>
                      apply absurd rfl (canonical.childInFront (.separator .child) _)
                      exact .tail _ (List.mem_append_right _ (.head _))
                  | descendantOrSelf =>
                      obtain ⟨step, rest, rfl⟩ := separated.exists_axis
                      exact .inr ⟨step, rest, rfl⟩

namespace Coverage

/-- How the steps of a concrete path match the legs of a pattern, at given places. -/
abbrev Matches (steps : List AxisStep) : Nat → List Leg → List Nat → Prop :=
  Placed (fun step cover => step.coveredBy cover = true) steps

variable {steps : List AxisStep} {start : Nat} {places : List Nat}

/-- Legs with `/` alone match the steps one by one. -/
theorem Matches.coveredStepwise (covers : List AxisStep)
    (isMatch : Matches steps start (covers.map (⟨.child, ·⟩)) places) :
    CoveredStepwise (steps.drop start) covers := by
  induction covers generalizing start places with
  | nil =>
      cases isMatch with
      | done =>
          rw [List.drop_length]
          exact .nil []
  | cons cover covers ih =>
      cases isMatch with
      | next reaches isLabel fit later =>
          cases reaches
          rw [List.drop_eq_getElem?_toList_append, isLabel]
          exact (CoveredStepwise.cons_iff ..).mpr ⟨fit, ih later⟩

/-- No step in front of a place is covered. -/
def FirstAt (steps : List AxisStep) (cover : AxisStep) (place : Nat) : Prop :=
  ∀ step ∈ steps.take place, step.coveredBy cover = false

/-- The first step that a cover covers stands no later than any other one. -/
theorem exists_findIdx {step cover : AxisStep} {place : Nat} (isStep : steps[place]? = some step)
    (covered : step.coveredBy cover = true) :
    ∃ i ≤ place, steps.findIdx? (·.coveredBy cover) = some i ∧
      (FirstAt steps cover place ↔ place ≤ i) := by
  cases found : steps.findIdx? (·.coveredBy cover) with
  | none =>
      have notCovered := List.findIdx?_eq_none_iff.mp found step (List.mem_of_getElem? isStep)
      rw [covered] at notCovered
      cases notCovered
  | some i =>
      obtain ⟨inside, isHit, noneBefore⟩ := List.findIdx?_eq_some_iff_getElem.mp found
      have atMost : i ≤ place := by
        apply Nat.le_of_not_lt
        intro before
        obtain ⟨_, isThere⟩ := List.getElem?_eq_some_iff.mp isStep
        have notCovered := noneBefore place before
        rw [isThere] at notCovered
        exact notCovered covered
      refine ⟨i, atMost, rfl, ?_⟩
      constructor
      · intro first
        apply Nat.le_of_not_lt
        intro before
        have notCovered := first steps[i] (List.mem_take_iff_getElem.mpr ⟨i, by omega, rfl⟩)
        rw [isHit] at notCovered
        cases notCovered
      · intro notLater other isBefore
        obtain ⟨j, before, isOther⟩ := List.mem_take_iff_getElem.mp isBefore
        rw [← isOther]
        exact Bool.eq_false_iff.mpr (noneBefore j (by omega))

/-- Legs behind axis steps with `/` alone are legs with `/` alone if nothing descends. -/
theorem flat_iff (covers : List AxisStep) {rest : Path} (descends : rest.Descends) :
    (∀ leg ∈ covers.map (⟨.child, ·⟩) ++ rest.legs, leg.depth = .child) ↔ rest = [] := by
  constructor
  · intro flat
    cases descends with
    | inl nothing => exact nothing
    | inr more =>
        obtain ⟨step, later, rfl⟩ := more
        cases flat ⟨.descendantOrSelf, step⟩ (List.mem_append_right _ (.head _))
  · intro nothing leg isLeg
    rw [nothing, Path.legs, List.append_nil] at isLeg
    obtain ⟨cover, -, rfl⟩ := List.mem_map.mp isLeg
    rfl

/-- If the walk is through with the steps behind a place no later than the match of the first leg,
then it has taken the very steps of the match, and nothing descends. -/
theorem eq_of_coveredStepwise (covers : List AxisStep) {rest : Path}
    (descends : rest.Descends) {reached : Nat}
    (isMatch : Matches steps start (covers.map (⟨.child, ·⟩) ++ rest.legs) places)
    (notLater : reached ≤ start) (covered : CoveredStepwise (steps.drop reached) covers) :
    rest = [] ∧ start = reached := by
  have enough := isMatch.length_le
  have few := covered.1
  simp only [List.length_append, List.length_map] at enough
  rw [List.length_drop] at few
  constructor
  · cases descends with
    | inl nothing => exact nothing
    | inr more =>
        obtain ⟨step, later, rfl⟩ := more
        simp only [Path.legs, List.length_cons] at enough
        omega
  · omega

/-- A concrete path that a canonical absolute pattern matches is covered exactly if the pattern has
no `//` behind its front and its first leg is matched at the first step that it covers. -/
theorem check_of_matches (steps : List AxisStep) (pattern : Path)
    (canonical : pattern.CanonicalAbsolute) (places : List Nat)
    (isMatch : Matches steps 0 pattern.legs places) :
    ∃ covered, check (.separator .child :: steps.map .axis) pattern = .ok covered ∧
      (covered = true ↔
        (∀ leg ∈ pattern.legs.tail, leg.depth = .child) ∧
          ∀ first ∈ pattern.legs.head?, ∀ place ∈ places.head?,
            FirstAt steps first.step place) := by
  obtain ⟨leading, first, later, rest, rfl, descends⟩ := canonical.split
  have isLegs : Path.legs (.separator leading :: (first :: later).map .axis ++ rest) =
      ⟨leading, first⟩ :: (later.map (⟨.child, ·⟩) ++ rest.legs) :=
    congrArg (List.cons _) (Path.legs_axes later rest)
  rw [isLegs] at isMatch ⊢
  obtain ⟨place, step, others, rfl, reaches, isStep, fit, onward⟩ := isMatch.uncons
  cases steps with
  | nil => cases isStep
  | cons front steps =>
      have verdict := walk_concrete (front :: steps) (List.cons_ne_nil _ _) leading first later
        rest descends.boundary
      refine ⟨_, rfl, verdict.trans ?_⟩
      simp only [List.tail_cons, flat_iff later descends, List.head?_cons, Option.mem_some,
        forall_eq']
      cases leading with
      | child =>
          have atFront : place = 0 := reaches
          constructor
          · intro covered
            obtain ⟨nothing, -⟩ :=
              eq_of_coveredStepwise (first :: later) descends isMatch (Nat.le_refl 0) covered
            refine ⟨nothing, ?_⟩
            intro other isBefore
            rw [atFront] at isBefore
            cases isBefore
          · intro both
            rw [both.1, Path.legs, List.append_nil] at isMatch
            exact Matches.coveredStepwise (first :: later) isMatch
      | descendantOrSelf =>
          obtain ⟨i, atMost, found, isFirst⟩ := exists_findIdx isStep fit
          rw [ConcreteVerdict, found, isFirst]
          constructor
          · intro covered
            obtain ⟨nothing, same⟩ :=
              eq_of_coveredStepwise later descends onward (Nat.succ_le_succ atMost) covered
            exact ⟨nothing, Nat.le_of_succ_le_succ (Nat.le_of_eq same)⟩
          · intro both
            have same : place = i := Nat.le_antisymm both.2 atMost
            rw [both.1, Path.legs, List.append_nil, same] at onward
            exact Matches.coveredStepwise later onward

/-- `/TEI/text/body/p` in front of `//body/p` -/
theorem check_of_matches_paragraph :
    let child (name : String) : AxisStep := ⟨.child, .name ⟨none, .named name⟩⟩
    let steps := [child "TEI", child "text", child "body", child "p"]
    let pattern : Path :=
      [.separator .descendantOrSelf, .axis (child "body"), .axis (child "p")]
    pattern.CanonicalAbsolute ∧ Matches steps 0 pattern.legs [2, 3] ∧
      ∃ covered, check (.separator .child :: steps.map .axis) pattern = .ok covered ∧
        (covered = true ↔
          (∀ leg ∈ pattern.legs.tail, leg.depth = .child) ∧
            ∀ first ∈ pattern.legs.head?, ∀ place ∈ [2, 3].head?,
              FirstAt steps first.step place) := by
  intro child steps pattern
  have canonical : pattern.CanonicalAbsolute := by
    constructor
    · rfl
    · decide
    · constructor
      · intro step isLast
        cases isLast
        rfl
      · decide
  have isMatch : Matches steps 0 pattern.legs [2, 3] :=
    .next (Nat.zero_le 2) rfl rfl (.next rfl rfl rfl .done)
  exact ⟨canonical, isMatch, check_of_matches steps pattern canonical [2, 3] isMatch⟩

/-- `/a/a/b` is matched by `//a/b`, though not at its first `a`, and by `/a//b`, and neither covers
it. -/
theorem check_refuses_matches :
    let child (name : String) : AxisStep := ⟨.child, .name ⟨none, .named name⟩⟩
    let steps := [child "a", child "a", child "b"]
    let below : Path := [.separator .descendantOrSelf, .axis (child "a"), .axis (child "b")]
    let inside : Path := [.separator .child, .axis (child "a"), .separator .descendantOrSelf,
      .axis (child "b")]
    (below.CanonicalAbsolute ∧ Matches steps 0 below.legs [1, 2] ∧
        check (.separator .child :: steps.map .axis) below = .ok false) ∧
      inside.CanonicalAbsolute ∧ Matches steps 0 inside.legs [0, 2] ∧
        check (.separator .child :: steps.map .axis) inside = .ok false := by
  intro child steps below inside
  constructor
  · refine ⟨⟨rfl, by decide, ?_, by decide⟩, ?_, rfl⟩
    · intro step isLast
      cases isLast
      rfl
    · exact .next (Nat.zero_le 1) rfl rfl (.next rfl rfl rfl .done)
  · refine ⟨⟨rfl, by decide, ?_, by decide⟩, ?_, rfl⟩
    · intro step isLast
      cases isLast
      rfl
    · exact .next rfl rfl rfl (.next (Nat.le_succ 1) rfl rfl .done)

end Coverage

end PathCover
