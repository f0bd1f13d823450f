import Mathlib.Data.Set.Basic
import PathCover.Path.Basic

/-!
# Placing a path on a word

A path is read here as a demand on words: its axis steps stand in order at distinct places of the
word, the last one at the last place.  A `/` in front of a step asks for the place right behind the
step before; a `//` allows any later one.  The words that meet the demand of a path, under some
meaning of single steps, are the language of the path.
-/

namespace PathCover

/-- An axis step with the separator in front of it, be it written or implied. -/
structure Leg where
  depth : Depth
  step : AxisStep
  deriving DecidableEq

/-- The places that a leg may reach from the first place that is still free. -/
def Leg.Reaches (leg : Leg) (start place : Nat) : Prop :=
  match leg.depth with
  | .child => place = start
  | .descendantOrSelf => start ≤ place

theorem Leg.Reaches.le {leg : Leg} {start place : Nat} (reaches : leg.Reaches start place) :
    start ≤ place := by
  cases leg with
  | mk depth step =>
      cases depth with
      | child => exact Nat.le_of_eq reaches.symm
      | descendantOrSelf => exact reaches

namespace Path

/-- The axis steps of a path, each with the separator in front of it.  Between two axis steps that
is an implied `/`.  A separator that no axis step follows belongs to no leg. -/
def legs : Path → List Leg
  | [] => []
  | .axis step :: rest => ⟨.child, step⟩ :: legs rest
  | .separator depth :: .axis step :: rest => ⟨depth, step⟩ :: legs rest
  | .separator _ :: rest => legs rest

/-- A written `/` reads like an implied one. -/
theorem legs_child (rest : Path) : legs (.separator .child :: rest) = legs rest := by
  cases rest with
  | nil => rfl
  | cons step rest => cases step <;> rfl

/-- An axis step ends a leg, whatever stands in front of it. -/
theorem legs_append_axis (front : Path) (step : AxisStep) (rest : Path) :
    ∃ (before : List Leg) (depth : Depth),
      legs (front ++ .axis step :: rest) = before ++ ⟨depth, step⟩ :: legs rest := by
  fun_induction legs front with
  | case1 => exact ⟨[], .child, rfl⟩
  | case2 other front ih =>
      obtain ⟨before, depth, split⟩ := ih
      exact ⟨⟨.child, other⟩ :: before, depth, congrArg (List.cons _) split⟩
  | case3 separator other front ih =>
      obtain ⟨before, depth, split⟩ := ih
      exact ⟨⟨separator, other⟩ :: before, depth, congrArg (List.cons _) split⟩
  | case4 separator front notAxis ih =>
      cases front with
      | nil => exact ⟨[], separator, rfl⟩
      | cons next front =>
          cases next with
          | axis other => exact absurd rfl (notAxis other front)
          | separator other => exact ih

/-- Axis steps in a row, up to a separator, are legs with an implied `/`. -/
theorem legs_axes (steps : List AxisStep) (rest : Path) :
    legs (steps.map .axis ++ rest) = steps.map (⟨.child, ·⟩) ++ legs rest := by
  induction steps with
  | nil => rfl
  | cons step steps ih => exact congrArg (List.cons _) ih

end Path

section Placed

variable {Label : Type} (fits : Label → AxisStep → Prop) (word : List Label)

/-- The steps of the legs stand at these places of a word, whose places before `start` are taken,
and the last of them stands at the end of the word. -/
inductive Placed : Nat → List Leg → List Nat → Prop where
  | done : Placed word.length [] []
  | next {start place : Nat} {leg : Leg} {legs : List Leg} {places : List Nat} {label : Label}
      (reaches : leg.Reaches start place) (isLabel : word[place]? = some label)
      (fit : fits label leg.step) (later : Placed (place + 1) legs places) :
      Placed start (leg :: legs) (place :: places)

variable {fits word} {start : Nat} {legs : List Leg} {places : List Nat}

/-- The first leg has the first place. -/
theorem Placed.uncons {leg : Leg} (placed : Placed fits word start (leg :: legs) places) :
    ∃ (place : Nat) (label : Label) (later : List Nat), places = place :: later ∧
      leg.Reaches start place ∧ word[place]? = some label ∧ fits label leg.step ∧
        Placed fits word (place + 1) legs later := by
  cases placed with
  | next reaches isLabel fit later => exact ⟨_, _, _, rfl, reaches, isLabel, fit, later⟩

/-- Each leg takes a place of its own. -/
theorem Placed.length_le (placed : Placed fits word start legs places) :
    start + legs.length ≤ word.length := by
  induction placed with
  | done => exact Nat.le_refl _
  | next reaches _ _ _ ih =>
      have atLeast := reaches.le
      simp only [List.length_cons]
      omega

/-- Where some legs are placed, the next leg has a place behind them. -/
theorem Placed.split {before after : List Leg} {leg : Leg}
    (placed : Placed fits word start (before ++ leg :: after) places) :
    ∃ (place : Nat) (label : Label) (later : List Nat), start ≤ place ∧
      word[place]? = some label ∧ fits label leg.step ∧
        Placed fits word (place + 1) after later := by
  induction before generalizing start places with
  | nil =>
      cases placed with
      | next reaches isLabel fit later => exact ⟨_, _, _, reaches.le, isLabel, fit, later⟩
  | cons first before ih =>
      cases placed with
      | next reaches _ _ later =>
          obtain ⟨place, label, places, behind, isLabel, fit, rest⟩ := ih later
          have atLeast := reaches.le
          exact ⟨place, label, places, by omega, isLabel, fit, rest⟩

end Placed

/-- The language of a path under a meaning of its steps as sets of labels. -/
def Path.words {Label : Type} (labels : AxisStep → Set Label) (path : Path) : Set (List Label) :=
  {word | ∃ places, Placed (fun label step => label ∈ labels step) word 0 path.legs places}

end PathCover
