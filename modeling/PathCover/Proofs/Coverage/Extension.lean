import PathCover.Coverage.Walk

/-!
# Longer patterns and deeper candidates

Two kinds of steps have no influence on coverage.  Steps behind a pattern that covers a candidate
are never read: the walk has used up the candidate before it comes to them.  And steps in front of
the first one that the step behind a leading `//` covers are passed over, however many there are and
whatever separators stand among them.
-/

namespace PathCover.Coverage

/-! ## Longer patterns -/

/-- The same walk in front of more steps of the pattern. -/
def Walk.before (walk : Walk) (more : List Step) : Walk :=
  { walk with patternLeft := walk.patternLeft ++ more }

/-- Where there is nothing to find, a skip leaves the last step. -/
theorem left_skip_none (first : Step) (rest : List Step) :
    (skip none (first :: rest)).left ≠ [] := by
  induction rest generalizing first with
  | nil => exact List.cons_ne_nil first []
  | cons next rest ih => exact ih next

/-- Nothing of the pattern is read once the candidate is used up. -/
theorem walkFrom_nil (pattern : List Step) (c p : Nat) :
    walkFrom [] pattern c p = ⟨[], pattern, []⟩ := by
  rcases pattern with _ | ⟨⟨_ | _⟩ | cover, pattern⟩ <;> rfl

/-- A walk that uses up the candidate is the same in front of more steps of the pattern. -/
theorem walkFrom_append (more : List Step) : (pattern candidate : List Step) → (c p : Nat) →
    (walkFrom candidate pattern c p).covered = true →
      walkFrom candidate (pattern ++ more) c p = (walkFrom candidate pattern c p).before more
  | [], candidate, c, p, covered => by
      obtain rfl : candidate = [] := List.isEmpty_iff.mp covered
      rw [List.nil_append, walkFrom_nil]
      rfl
  | step :: pattern, [], c, p, _ => by
      rw [walkFrom_nil, walkFrom_nil]
      rfl
  | .axis cover :: pattern, .axis step :: candidate, c, p, covered => by
      rw [List.cons_append, walkFrom, walkFrom]
      rw [walkFrom] at covered
      split at covered
      · rename_i isCovered
        rw [if_pos isCovered, if_pos isCovered]
        exact walkFrom_append more pattern candidate (c + 1) (p + 1) covered
      · cases covered
  | .separator .child :: pattern, .separator .child :: candidate, c, p, covered => by
      rw [List.cons_append, walkFrom, walkFrom]
      exact walkFrom_append more pattern candidate (c + 1) (p + 1) covered
  | .separator .descendantOrSelf :: target :: pattern, .separator depth :: candidate, c, p,
      covered => by
      -- The skip for the `//` looks for the same step, for that step is there already.
      have onward := walkFrom_append more pattern _ _ _ covered
      exact congrArg (Walk.after _) onward
  | .separator .descendantOrSelf :: [], .separator depth :: candidate, _, _, covered => by
      -- With nothing behind its `//` a pattern uses no candidate up.
      exact absurd (List.isEmpty_iff.mp covered) (left_skip_none _ candidate)

/-- An absolute path stays absolute with more steps behind it. -/
theorem isAbsolute_append {path : Path} (absolute : path.isAbsolute = true) (more : Path) :
    (path ++ more).isAbsolute = true := by
  match path, absolute with
  | .separator _ :: _ :: _, _ => rfl

/-- A coverage question has a verdict if both paths are absolute, and it is that of the walk. -/
theorem check_eq_ok {candidate pattern : Path} {covered : Bool} :
    check candidate pattern = .ok covered ↔ candidate.isAbsolute = true ∧
      pattern.isAbsolute = true ∧ (walk candidate pattern).covered = covered := by
  rw [check]
  cases candidate.isAbsolute <;> cases pattern.isAbsolute <;> simp

/-- Trailing steps never make a pattern refuse a candidate that it covers.  This asks nothing of the
`//` of the pattern, for no candidate is covered that comes to one with nothing behind it. -/
theorem check_append_trailing (candidate pattern trailing : Path)
    (covers : check candidate pattern = .ok true) :
    check candidate (pattern ++ trailing) = .ok true := by
  obtain ⟨candidateAbsolute, patternAbsolute, covered⟩ := check_eq_ok.mp covers
  refine check_eq_ok.mpr ⟨candidateAbsolute, isAbsolute_append patternAbsolute trailing, ?_⟩
  rw [walk, walkFrom_append trailing pattern candidate 0 0 covered]
  exact covered

/-- `/TEI/text` in front of `//text` and more -/
theorem check_append_trailing_text :
    let child (name : String) : Step := .axis ⟨.child, .name ⟨none, .named name⟩⟩
    let candidate : Path := [.separator .child, child "TEI", child "text"]
    let pattern : Path := [.separator .descendantOrSelf, child "text"]
    let trailing : Path := [.separator .descendantOrSelf, .separator .child, child "p"]
    check candidate pattern = .ok true ∧ check candidate (pattern ++ trailing) = .ok true := by
  intro child candidate pattern trailing
  have covers : check candidate pattern = .ok true := rfl
  exact ⟨covers, check_append_trailing candidate pattern trailing covers⟩

/-! ## Deeper candidates -/

/-- The places at which a walk stands have no influence on its verdict. -/
theorem covered_walkFrom (candidate pattern : List Step) (c p : Nat) (c' p' : Nat) :
    (walkFrom candidate pattern c p).covered = (walkFrom candidate pattern c' p').covered := by
  fun_induction walkFrom candidate pattern c p generalizing c' p' with
  | case5 c p depth candidate target pattern skipped ih => exact ih _ _
  | case7 c p pattern candidate ih => exact ih _ _
  | case11 c p cover pattern step candidate isCovered ih =>
      rw [walkFrom, if_pos isCovered]
      exact ih _ _
  | case12 c p cover pattern step candidate notCovered =>
      rw [walkFrom, if_neg notCovered]
      rfl
  | _ => rfl

/-- A skip passes over steps that its target does not cover, whatever separator it starts from. -/
theorem skip_passed {target : AxisStep} (passed : List Step) {rest : List Step} (goesOn : rest ≠ [])
    (missed : ∀ step, .axis step ∈ passed → step.coveredBy target = false) (front other : Step) :
    skip (some (.axis target)) (front :: (passed ++ rest)) =
      { skip (some (.axis target)) (other :: rest) with
        moved := (skip (some (.axis target)) (other :: rest)).moved + passed.length } := by
  induction passed generalizing front with
  | nil =>
      obtain ⟨next, later, rfl⟩ := List.exists_cons_of_ne_nil goesOn
      rfl
  | cons first passed ih =>
      have notHit : hits (some (.axis target)) first = false := by
        cases first with
        | separator depth => rfl
        | axis step => exact missed step List.mem_cons_self
      have later := ih (fun step member => missed step (List.mem_cons_of_mem _ member)) first
      rw [List.cons_append, skip, notHit, if_neg Bool.false_ne_true, later]
      rfl

/-- What stands in front of the first step that the step behind a leading `//` covers has no
influence on the verdict. -/
theorem check_passed (target : AxisStep) (later : Path) (front other : Depth)
    (passed rest : List Step) (goesOn : rest ≠ [])
    (missed : ∀ step, .axis step ∈ passed → step.coveredBy target = false) :
    ∃ covered,
      check (.separator front :: (passed ++ rest))
          (.separator .descendantOrSelf :: .axis target :: later) = .ok covered ∧
        check (.separator other :: rest)
          (.separator .descendantOrSelf :: .axis target :: later) = .ok covered := by
  have absolute : ∀ depth, Path.isAbsolute (.separator depth :: rest) = true := by
    obtain ⟨next, rest, rfl⟩ := List.exists_cons_of_ne_nil goesOn
    exact fun _ => rfl
  have absolutePassed : Path.isAbsolute (.separator front :: (passed ++ rest)) = true := by
    cases passed with
    | nil => exact absolute front
    | cons first passed => rfl
  have skipped := skip_passed passed goesOn missed (.separator front) (.separator other)
  have sameVerdict : (walk (.separator front :: (passed ++ rest))
        (.separator .descendantOrSelf :: .axis target :: later)).covered =
      (walk (.separator other :: rest)
        (.separator .descendantOrSelf :: .axis target :: later)).covered := by
    rw [walk, walk, walkFrom, walkFrom, skipped]
    exact covered_walkFrom ..
  exact ⟨_, check_eq_ok.mpr ⟨absolutePassed, rfl, sameVerdict⟩,
    check_eq_ok.mpr ⟨absolute other, rfl, rfl⟩⟩

/-- `/TEI//text/..//p/hi` and `//p/hi` in front of `//p/ab` -/
theorem check_passed_paragraph :
    let child (name : String) : AxisStep := ⟨.child, .name ⟨none, .named name⟩⟩
    let passed : List Step := [.axis (child "TEI"), .separator .descendantOrSelf,
      .axis (child "text"), .axis ⟨.parent, .kind .anyKind⟩, .separator .descendantOrSelf]
    let rest : List Step := [.axis (child "p"), .axis (child "hi")]
    rest ≠ [] ∧ (∀ step, Step.axis step ∈ passed → step.coveredBy (child "p") = false) ∧
      ∃ covered,
        check (.separator .child :: (passed ++ rest))
            [.separator .descendantOrSelf, .axis (child "p"), .axis (child "ab")] =
              .ok covered ∧
          check (.separator .descendantOrSelf :: rest)
            [.separator .descendantOrSelf, .axis (child "p"), .axis (child "ab")] =
              .ok covered := by
  intro child passed rest
  have goesOn : rest ≠ [] := List.cons_ne_nil _ _
  have missed : ∀ step, Step.axis step ∈ passed → step.coveredBy (child "p") = false := by
    intro step member
    simp only [passed, List.mem_cons, List.not_mem_nil, or_false, Step.axis.injEq] at member
    rcases member with rfl | impossible | rfl | rfl | impossible
    · decide
    · cases impossible
    · decide
    · decide
    · cases impossible
  exact ⟨goesOn, missed, check_passed (child "p") _ .child .descendantOrSelf passed rest goesOn
    missed⟩

end PathCover.Coverage
