/-!
# Completion rules

A rule says what to offer for the values of the attributes that its pattern covers.  Rules are kept
in a set, in an order that matters.
-/

namespace PathCover

/-- Where the values to offer are read from, relative to the element. -/
structure Selection where
  path : String
  label : Option String
  deriving DecidableEq, Inhabited

/-- A second attribute, whose value narrows what is offered. -/
structure Dependent where
  /-- The step from the element to the attribute. -/
  target : String
  /-- The value that counts where the element does not have the attribute. -/
  fallback : Option String
  label : Option String
  deriving DecidableEq, Inhabited

structure Rule where
  /-- The namespace of each qualifier, in the order in which they were given. -/
  bindings : List (String × String)
  /-- The path of the elements that the rule is about. -/
  context : String
  /-- The step from such an element to the attribute. -/
  target : String
  selection : Option Selection
  dependent : Option Dependent
  deriving DecidableEq, Inhabited

namespace Rule

/-- The text of the pattern of the attributes that a rule is about. -/
def patternText (rule : Rule) : String := rule.context ++ "/" ++ rule.target

/-- The namespace that a rule binds to a qualifier. -/
def namespaceOf? (rule : Rule) (qualifier : String) : Option String :=
  (rule.bindings.find? (·.1 = qualifier)).map (·.2)

/-- Adds a binding at the end, or changes the one of the same qualifier where it stands. -/
def bind (qualifier uri : String) : List (String × String) → List (String × String)
  | [] => [(qualifier, uri)]
  | binding :: rest =>
      if binding.1 = qualifier then (qualifier, uri) :: rest
      else binding :: bind qualifier uri rest

end Rule

/-- Rules in the order in which they are tried. -/
abbrev RuleSet := List Rule

end PathCover
