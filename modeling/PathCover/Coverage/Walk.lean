import PathCover.Coverage.Step
import PathCover.Log

/-!
# Coverage of paths

Whether every node that a candidate path selects is selected by a pattern path.  The answer comes
from one walk along both paths.  It is conservative: a refusal says that the walk found no proof.

Both paths are read step by step.  A `//` of the pattern lets the candidate skip to the first later
step that the step after the `//` covers.  The walk succeeds when the candidate is used up; what is
left of the pattern does not matter.
-/

namespace PathCover.Coverage

/-- What a walk met, with its two positions. -/
inductive Happening where
  /-- The candidate descends any number of levels where the pattern descends one. -/
  | notNarrowed (candidate pattern : Nat)
  /-- The pattern's step does not cover the candidate's. -/
  | mismatch (candidate pattern : Nat) (step cover : AxisStep)
  /-- A step stands against a separator. -/
  | unpaired (candidate pattern : Nat)
  /-- The candidate skipped ahead for a `//` of the pattern. -/
  | aligned (candidate pattern : Nat) (found : Bool)

/-- Where a walk ended and what it met on the way. -/
structure Walk where
  candidateLeft : List Step
  patternLeft : List Step
  happenings : List Happening

namespace Walk

/-- A walk succeeds when nothing of the candidate is left. -/
def covered (walk : Walk) : Bool := walk.candidateLeft.isEmpty

/-- The same walk with one more happening at its front. -/
def after (happening : Happening) (walk : Walk) : Walk :=
  { walk with happenings := happening :: walk.happenings }

end Walk

/-- Where a skip along the candidate ended. -/
structure Skip where
  found : Bool
  moved : Nat
  left : List Step

/-- Whether a step of the candidate is covered by the step to be found, if there is one. -/
def hits (target : Option Step) (step : Step) : Bool :=
  match target.bind Step.axisStep?, step.axisStep? with
  | some cover, some candidate => candidate.coveredBy cover
  | _, _ => false

/-- Skips along the candidate, whose front is a separator, to the first later step that is covered
by the target, and over that step.  If there is none the skip ends at the candidate's last step. -/
def skip (target : Option Step) : List Step → Skip
  | [] => ⟨false, 0, []⟩
  | [last] => ⟨false, 0, [last]⟩
  | _ :: step :: rest =>
      if hits target step then ⟨true, 2, rest⟩
      else
        let further := skip target (step :: rest)
        { further with moved := further.moved + 1 }

/-- The walk along what is left of a candidate and of a pattern, at the given positions.  The step
after a `//` of the pattern is used up with it, found or not. -/
def walkFrom (candidate pattern : List Step) (c p : Nat) : Walk :=
  match pattern with
  | [] => ⟨candidate, [], []⟩
  | .separator .descendantOrSelf :: pattern =>
      match candidate with
      | [] => ⟨[], .separator .descendantOrSelf :: pattern, []⟩
      | .axis step :: candidate =>
          ⟨.axis step :: candidate, .separator .descendantOrSelf :: pattern, [.unpaired c p]⟩
      | .separator depth :: candidate =>
          match pattern with
          | [] =>
              let skipped := skip none (.separator depth :: candidate)
              ⟨skipped.left, [], [.aligned (c + skipped.moved) p skipped.found]⟩
          | target :: pattern =>
              let skipped := skip (some target) (.separator depth :: candidate)
              (walkFrom skipped.left pattern (c + skipped.moved) (p + 2)).after
                (.aligned (c + skipped.moved) p skipped.found)
  | .separator .child :: pattern =>
      match candidate with
      | [] => ⟨[], .separator .child :: pattern, []⟩
      | .separator .child :: candidate => walkFrom candidate pattern (c + 1) (p + 1)
      | .separator .descendantOrSelf :: candidate =>
          ⟨.separator .descendantOrSelf :: candidate, .separator .child :: pattern,
            [.notNarrowed c p]⟩
      | .axis step :: candidate =>
          ⟨.axis step :: candidate, .separator .child :: pattern, [.unpaired c p]⟩
  | .axis cover :: pattern =>
      match candidate with
      | [] => ⟨[], .axis cover :: pattern, []⟩
      | .axis step :: candidate =>
          if step.coveredBy cover then walkFrom candidate pattern (c + 1) (p + 1)
          else ⟨.axis step :: candidate, .axis cover :: pattern, [.mismatch c p step cover]⟩
      | .separator depth :: candidate =>
          ⟨.separator depth :: candidate, .axis cover :: pattern, [.unpaired c p]⟩

/-- The walk along a candidate and a pattern from their fronts. -/
def walk (candidate pattern : Path) : Walk := walkFrom candidate pattern 0 0

/-- One of the two paths of a coverage question. -/
inductive Operand where
  | candidate
  | pattern
  deriving DecidableEq, Inhabited

def Operand.render : Operand → String
  | .candidate => "candidate"
  | .pattern => "pattern"

/-- A path that should have been absolute, by its written form. -/
structure NotAbsolute where
  operand : Operand
  path : String
  deriving DecidableEq, Inhabited

def NotAbsolute.message (fault : NotAbsolute) : String :=
  fault.operand.render ++ " expression must be an absolute path expression, got `" ++
    fault.path ++ "`"

/-- The log event of a happening. -/
def Happening.event : Happening → Event
  | .notNarrowed c p =>
      ⟨.trace, "`//` cannot be narrowed to `/`", [("c", toString c), ("p", toString p)]⟩
  | .mismatch c p step cover =>
      ⟨.trace, "step mismatch",
        [("c", toString c), ("p", toString p), ("candidate", step.render),
          ("pattern", cover.render)]⟩
  | .unpaired c p =>
      ⟨.trace, "axis step paired with separator", [("c", toString c), ("p", toString p)]⟩
  | .aligned c p found =>
      ⟨.trace, "aligned on `//`",
        [("c", toString c), ("p", toString p), ("found", Event.truth found)]⟩

/-- The event that closes a coverage question. -/
def finished (candidate pattern : Path) (covered : Bool) : Event :=
  ⟨.trace, "subset check finished",
    [("candidate", candidate.render), ("pattern", pattern.render),
      ("covered", Event.truth covered)]⟩

/-- Whether the pattern covers the candidate.  Both have to be absolute, and the candidate is
looked at first. -/
def check (candidate pattern : Path) : Except NotAbsolute Bool :=
  if !candidate.isAbsolute then .error ⟨.candidate, candidate.render⟩
  else if !pattern.isAbsolute then .error ⟨.pattern, pattern.render⟩
  else .ok (walk candidate pattern).covered

/-- The coverage check with its log. -/
def checkLogged (candidate pattern : Path) : Logged (Except NotAbsolute Bool) :=
  match check candidate pattern with
  | .error fault => .silent (.error fault)
  | .ok covered =>
      ⟨.ok covered,
        (walk candidate pattern).happenings.map Happening.event ++
          [finished candidate pattern covered]⟩

end PathCover.Coverage
