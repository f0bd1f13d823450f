/-!
# Axes

The twelve axes along which a step moves from one node to others.
-/

namespace PathCover

/-- The direction of a step. -/
inductive Axis where
  | child
  | attribute
  | descendant
  | descendantOrSelf
  | parent
  | ancestor
  | ancestorOrSelf
  | following
  | followingSibling
  | preceding
  | precedingSibling
  | self
  deriving DecidableEq, Inhabited

namespace Axis

/-- Every axis once, in the order in which answers list them. -/
def all : List Axis :=
  [.child, .attribute, .descendant, .descendantOrSelf, .parent, .ancestor, .ancestorOrSelf,
    .following, .followingSibling, .preceding, .precedingSibling, .self]

/-- The name of an axis as it is written before `::`. -/
def render : Axis → String
  | .child => "child"
  | .attribute => "attribute"
  | .descendant => "descendant"
  | .descendantOrSelf => "descendant-or-self"
  | .parent => "parent"
  | .ancestor => "ancestor"
  | .ancestorOrSelf => "ancestor-or-self"
  | .following => "following"
  | .followingSibling => "following-sibling"
  | .preceding => "preceding"
  | .precedingSibling => "preceding-sibling"
  | .self => "self"

/-- The axis of a given name. -/
def ofName? (name : String) : Option Axis := all.find? (·.render = name)

theorem mem_all (axis : Axis) : axis ∈ all := by cases axis <;> decide

/-- An axis is read back from its own name. -/
theorem ofName?_render (axis : Axis) : ofName? axis.render = some axis := by
  cases axis <;> decide

end Axis

end PathCover
