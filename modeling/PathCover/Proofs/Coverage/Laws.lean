import Mathlib.Data.List.Chain
import PathCover.Proofs.Path.Shape

/-!
# Laws of coverage

Coverage is a relation between absolute paths.  It is reflexive: in a walk of a path along itself
both sides stand at the same place throughout, for a `//` finds the step behind it at once.  A path
may have a `//` with no step behind it only if it does not come from a text.
-/

namespace PathCover

/-! ## Paths whose `//` lead to steps -/

/-- Every `//` of the path stands right in front of an axis step. -/
def Path.Anchored (path : Path) : Prop :=
  ∀ front behind, path = front ++ .separator .descendantOrSelf :: behind →
    ∃ next ∈ behind.head?, next.isSeparator = false

namespace Path.Anchored

variable {step : Step} {rest : Path}

@[simp] theorem nil : Anchored [] := by
  intro front behind split
  simp at split

@[simp] theorem cons_iff : Anchored (step :: rest) ↔
    (step = .separator .descendantOrSelf → ∃ next ∈ rest.head?, next.isSeparator = false) ∧
      Anchored rest := by
  constructor
  · intro anchored
    refine ⟨fun same => anchored [] rest (congrArg (· :: rest) same), ?_⟩
    intro front behind split
    exact anchored (step :: front) behind (congrArg (List.cons step) split)
  · rintro ⟨here, later⟩ front behind split
    cases front with
    | nil =>
        obtain ⟨same, rfl⟩ := List.cons.inj split
        exact here same
    | cons first front => exact later front behind (List.cons.inj split).2

theorem tail (anchored : Anchored (step :: rest)) : Anchored rest := (cons_iff.mp anchored).2

theorem head (anchored : Anchored (.separator .descendantOrSelf :: rest)) :
    ∃ (target : AxisStep) (later : Path), rest = .axis target :: later := by
  obtain ⟨next, isNext, isAxis⟩ := (cons_iff.mp anchored).1 rfl
  obtain ⟨later, rfl⟩ := List.head?_eq_some_iff.mp isNext
  cases next with
  | separator depth => cases isAxis
  | axis target => exact ⟨target, later, rfl⟩

end Path.Anchored

/-- In a tight path no `//` is last and none stands in front of another separator. -/
theorem Path.Tight.anchored {path : Path} (tight : path.Tight) : path.Anchored := by
  rintro front behind rfl
  cases behind with
  | nil =>
      have isRoot := tight.last .descendantOrSelf (List.getLast?_concat)
      cases front with
      | nil => cases isRoot
      | cons step front => simp at isRoot
  | cons next behind =>
      refine ⟨next, rfl, ?_⟩
      have apart := tight.apart.right_of_append
      rcases (List.isChain_cons_cons.mp apart).1 with notSeparator | isAxis
      · cases notSeparator
      · exact isAxis

/-! ## Reflexivity -/

theorem AxisStep.coveredBy_self (step : AxisStep) : step.coveredBy step = true := by
  simp [coveredBy, Axis.coveredBy, NodeTest.coveredBy]

namespace Coverage

/-- The walk of a path along itself uses the path up. -/
theorem walkFrom_self : (path : Path) → path.Anchored → (c p : Nat) →
    (walkFrom path path c p).covered = true
  | [], _, _, _ => rfl
  | .axis step :: rest, anchored, c, p => by
      rw [walkFrom, if_pos step.coveredBy_self]
      exact walkFrom_self rest anchored.tail (c + 1) (p + 1)
  | .separator .child :: rest, anchored, c, p => by
      rw [walkFrom]
      exact walkFrom_self rest anchored.tail (c + 1) (p + 1)
  | .separator .descendantOrSelf :: .axis target :: later, anchored, c, p => by
      -- The skip for the `//` ends right behind the target.
      have hit : skip (some (.axis target))
          (.separator .descendantOrSelf :: .axis target :: later) = ⟨true, 2, later⟩ :=
        if_pos target.coveredBy_self
      rw [walkFrom, hit]
      exact walkFrom_self later anchored.tail.tail (c + 2) (p + 2)
  | .separator .descendantOrSelf :: [], anchored, _, _ => by
      obtain ⟨_, _, impossible⟩ := anchored.head
      cases impossible
  | .separator .descendantOrSelf :: .separator _ :: _, anchored, _, _ => by
      obtain ⟨_, _, impossible⟩ := anchored.head
      cases impossible

/-- An absolute path whose `//` all lead to steps covers itself, and so does the absolute path of
every valid text. -/
theorem check_self :
    (∀ path : Path, path.isAbsolute = true → path.Anchored → check path path = .ok true) ∧
      ∀ (limits : Tree.Limits) (text : String) (parsed : ParsedPath),
        ParsedPath.parse limits text = .ok parsed → parsed.isValid = true →
          parsed.path.isAbsolute = true → check parsed.path parsed.path = .ok true := by
  have reflexive : ∀ path : Path, path.isAbsolute = true → path.Anchored →
      check path path = .ok true := by
    intro path absolute anchored
    rw [check, absolute, walk, walkFrom_self path anchored]
    rfl
  refine ⟨reflexive, fun limits text parsed isParsed valid absolute => ?_⟩
  obtain ⟨derived, -, shown, denotes⟩ := ParsedPath.shown_of_parse isParsed valid
  exact reflexive parsed.path absolute (shown.stand denotes).tight.anchored

/-- A path that no text stands for, with a `/` inside, and the path of a text with two `//`. -/
theorem check_self_skipping :
    (let step : Step := .axis ⟨.followingSibling, .kind .text⟩
      let path : Path := [.separator .descendantOrSelf, step, .separator .child, step]
      path.isAbsolute = true ∧ path.Anchored ∧ check path path = .ok true) ∧
      ∃ parsed, ParsedPath.parse .standard "//p[1]/hi//@*" = .ok parsed ∧
        parsed.isValid = true ∧ parsed.path.isAbsolute = true ∧
        check parsed.path parsed.path = .ok true := by
  constructor
  · intro step path
    have anchored : path.Anchored := by simp [path, step, Step.isSeparator]
    exact ⟨rfl, anchored, check_self.1 path rfl anchored⟩
  · obtain ⟨parsed, isParsed, found⟩ := ParsedPath.exists_of_toOption
      (by decide +kernel : (ParsedPath.parse .standard "//p[1]/hi//@*").toOption.map
        (fun parsed => (parsed.isValid, parsed.path.isAbsolute)) = some (true, true))
    obtain ⟨valid, absolute⟩ := Prod.mk.inj found
    exact ⟨parsed, isParsed, valid, absolute,
      check_self.2 .standard _ parsed isParsed valid absolute⟩

end Coverage

end PathCover
