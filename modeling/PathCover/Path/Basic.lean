import PathCover.Path.Axis
import PathCover.Path.NodeTest

/-!
# Location paths

A path is a list of steps.  A separator is a step of its own only where it bears on coverage: at the
front of the path, and as `//` anywhere.  The `/` between two axis steps is not stored.  Predicates
are no part of a path.
-/

namespace PathCover

/-- How far a separator descends. -/
inductive Depth where
  /-- `/`: exactly one level. -/
  | child
  /-- `//`: any number of levels. -/
  | descendantOrSelf
  deriving DecidableEq, Inhabited

/-- The written form of a separator. -/
def Depth.render : Depth → String
  | .child => "/"
  | .descendantOrSelf => "//"

/-- A step along an axis to the nodes that a test accepts. -/
structure AxisStep where
  axis : Axis
  test : NodeTest
  deriving DecidableEq, Inhabited

/-- The written form of an axis step: the shortest one, save that a child step to attributes keeps
its axis, without which it would be read as an attribute step. -/
def AxisStep.render (step : AxisStep) : String :=
  match step.axis, step.test with
  | .parent, .kind .anyKind => ".."
  | .self, .kind .anyKind => "."
  | .attribute, test => "@" ++ test.render
  | .child, .kind kind =>
      if kind.selectsAttributes then "child::" ++ kind.render else kind.render
  | .child, .name name => name.render
  | axis, test => axis.render ++ "::" ++ test.render

/-- One element of a path. -/
inductive Step where
  | separator (depth : Depth)
  | axis (step : AxisStep)
  deriving DecidableEq, Inhabited

namespace Step

/-- A child step to a name. -/
def toChild (name : QName) : Step := .axis ⟨.child, .name name⟩

/-- An attribute step to a name. -/
def toAttribute (name : QName) : Step := .axis ⟨.attribute, .name name⟩

def isSeparator : Step → Bool
  | .separator _ => true
  | .axis _ => false

/-- The axis step that an element of a path is, if it is one. -/
def axisStep? : Step → Option AxisStep
  | .separator _ => none
  | .axis step => some step

/-- The written form of one element of a path. -/
def render : Step → String
  | .separator depth => depth.render
  | .axis step => step.render

end Step

/-- A location path. -/
abbrev Path := List Step

namespace Path

/-- A path is absolute when it starts with a separator and does not end there. -/
def isAbsolute : Path → Bool
  | .separator _ :: _ :: _ => true
  | _ => false

/-- The written form of a path, with the `/` between adjacent axis steps. -/
def render : Path → String
  | [] => ""
  | [step] => step.render
  | .axis first :: .axis second :: rest =>
      first.render ++ "/" ++ render (.axis second :: rest)
  | step :: rest => step.render ++ render rest

end Path

end PathCover
