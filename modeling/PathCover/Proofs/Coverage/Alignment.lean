import Mathlib.Logic.Relation
import PathCover.Coverage.Walk
import PathCover.Proofs.Coverage.Placement

/-!
# Walks that are aligned throughout

A walk may succeed although the pattern goes on, or although a `//` of the pattern found no step to
stand for.  Where neither happens, success is a proof of coverage: every word of the candidate is a
word of the pattern, under every meaning of the steps that respects coverage of single steps.
-/

namespace PathCover.Coverage

/-- A walk that used up both paths and found a step for every `//` of the pattern. -/
structure Walk.Complete (walk : Walk) : Prop where
  covered : walk.covered = true
  usedUp : walk.patternLeft = []
  found : ∀ (c p : Nat) (found : Bool), .aligned c p found ∈ walk.happenings → found = true

namespace Walk.Complete

variable {walk : Walk}

theorem candidateLeft (complete : walk.Complete) : walk.candidateLeft = [] :=
  List.isEmpty_iff.mp complete.covered

/-- What a walk met first was found, and the rest of it is complete too. -/
theorem of_after {c p : Nat} {found : Bool}
    (complete : (walk.after (.aligned c p found)).Complete) : found = true ∧ walk.Complete := by
  constructor
  · exact complete.found c p found (.head _)
  · constructor
    · exact complete.covered
    · exact complete.usedUp
    · intro c p found met
      exact complete.found c p found (.tail _ met)

end Walk.Complete

/-- A skip that found something passed over steps up to one that the target covers. -/
theorem skip_of_found {target front : Step} {rest : List Step}
    (found : (skip (some target) (front :: rest)).found = true) :
    ∃ (cover step : AxisStep) (passed : List Step), target = .axis cover ∧
      step.coveredBy cover = true ∧
      rest = passed ++ .axis step :: (skip (some target) (front :: rest)).left := by
  induction rest generalizing front with
  | nil => cases found
  | cons next rest ih =>
      rw [skip] at found ⊢
      cases isHit : hits (some target) next with
      | true =>
          cases target with
          | separator depth => cases isHit
          | axis cover =>
              cases next with
              | separator depth => cases isHit
              | axis step => exact ⟨cover, step, [], rfl, isHit, rfl⟩
      | false =>
          rw [isHit] at found
          obtain ⟨cover, step, passed, isAxis, covered, split⟩ := ih found
          exact ⟨cover, step, next :: passed, isAxis, covered, congrArg (List.cons next) split⟩

/-- Where there is nothing to find, nothing is found. -/
theorem found_skip_none (steps : List Step) : (skip none steps).found = false := by
  induction steps with
  | nil => rfl
  | cons first rest ih =>
      cases rest with
      | nil => rfl
      | cons next rest => exact ih

section Words

variable {Label : Type} {labels : AxisStep → Set Label} {word : List Label}
variable (sound : ∀ step cover : AxisStep, step.coveredBy cover = true →
  labels step ⊆ labels cover)

include sound

/-- What is left of the pattern can be placed wherever what is left of the candidate is placed.  An
implied `/` of the pattern only ever meets an implied `/` of the candidate, so that the places stay
the same; a `//` may skip some. -/
theorem placed_of_complete (candidate pattern : List Step) (c p : Nat)
    (complete : (walkFrom candidate pattern c p).Complete) {start : Nat} {places : List Nat}
    (placed : Placed (fun label step => label ∈ labels step) word start
      (Path.legs candidate) places) :
    ∃ others, Placed (fun label step => label ∈ labels step) word start
      (Path.legs pattern) others := by
  fun_induction walkFrom candidate pattern c p generalizing start places with
  | case1 candidate c p =>
      have nothing : candidate = [] := complete.candidateLeft
      rw [nothing] at placed
      exact ⟨places, placed⟩
  | case2 => cases complete.usedUp
  | case3 => cases complete.covered
  | case4 =>
      have isFound := complete.found _ _ _ (.head _)
      rw [found_skip_none] at isFound
      cases isFound
  | case5 c p depth candidate target pattern skipped ih =>
      obtain ⟨isFound, complete⟩ := complete.of_after
      obtain ⟨cover, step, passed, isAxis, covered, split⟩ := skip_of_found isFound
      obtain ⟨before, separator, isLeg⟩ :=
        Path.legs_append_axis (.separator depth :: passed) step skipped.left
      rw [List.cons_append, ← split] at isLeg
      rw [isLeg] at placed
      obtain ⟨place, label, later, behind, isLabel, fit, rest⟩ := placed.split
      obtain ⟨others, onward⟩ := ih complete rest
      rw [isAxis]
      exact ⟨place :: others, .next behind isLabel (sound step cover covered fit) onward⟩
  | case6 => cases complete.usedUp
  | case7 c p pattern candidate ih =>
      rw [Path.legs_child] at placed ⊢
      exact ih complete placed
  | case8 => cases complete.covered
  | case9 => cases complete.covered
  | case10 => cases complete.usedUp
  | case11 c p cover pattern step candidate covered ih =>
      cases placed with
      | next reaches isLabel fit later =>
          obtain ⟨others, onward⟩ := ih complete later
          exact ⟨_, .next reaches isLabel (sound step cover covered fit) onward⟩
  | case12 => cases complete.covered
  | case13 => cases complete.covered

/-- A complete walk proves that the language of the candidate lies in that of the pattern. -/
theorem words_subset_of_complete (candidate pattern : Path)
    (complete : (walk candidate pattern).Complete) :
    candidate.words labels ⊆ pattern.words labels := by
  intro word isWord
  obtain ⟨places, placed⟩ := isWord
  exact placed_of_complete sound candidate pattern 0 0 complete placed

end Words

/-- `//div//head//p/w` in front of `//div//p/w`, where a label is a step, and a step means all those
that it covers through any number of others -/
theorem words_subset_of_complete_skipping :
    let child (name : String) : Step := .axis ⟨.child, .name ⟨none, .named name⟩⟩
    let descend : Step := .separator .descendantOrSelf
    let labels (cover : AxisStep) : Set AxisStep :=
      {step | Relation.ReflTransGen (fun one other => one.coveredBy other = true) step cover}
    let candidate := [descend, child "div", descend, child "head", descend, child "p", child "w"]
    let pattern := [descend, child "div", descend, child "p", child "w"]
    (∀ step cover : AxisStep, step.coveredBy cover = true → labels step ⊆ labels cover) ∧
      (walk candidate pattern).Complete ∧
      Path.words labels candidate ⊆ Path.words labels pattern := by
  intro child descend labels candidate pattern
  have sound : ∀ step cover : AxisStep, step.coveredBy cover = true →
      labels step ⊆ labels cover := by
    intro step cover covered other isOther
    exact isOther.tail covered
  have complete : (walk candidate pattern).Complete := by
    constructor
    · rfl
    · rfl
    · have met : (walk candidate pattern).happenings =
          [.aligned 2 0 true, .aligned 6 2 true] := rfl
      intro c p found isMet
      rw [met] at isMet
      simp only [List.mem_cons, Happening.aligned.injEq, List.not_mem_nil, or_false] at isMet
      rcases isMet with ⟨-, -, isFound⟩ | ⟨-, -, isFound⟩
      · exact isFound
      · exact isFound
  exact ⟨sound, complete, words_subset_of_complete sound candidate pattern complete⟩

end PathCover.Coverage
