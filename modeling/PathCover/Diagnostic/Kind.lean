/-!
# Kinds of diagnostics

What can be wrong with the text of a path, in order of priority: where two diagnostics concern the
same place, a kind that stands earlier explains one that stands later.
-/

namespace PathCover

inductive Severity where
  | error
  | warning
  deriving DecidableEq, Inhabited

def Severity.render : Severity → String
  | .error => "error"
  | .warning => "warning"

inductive DiagnosticKind where
  | unclosedPredicate
  | unclosedKindTest
  | expectedPath
  | expectedStep
  | expectedNodeTest
  | expectedName
  | unexpectedToken
  | trailingInput
  | unknownAxis
  | unsupportedAxis
  | unknownKindTest
  | invalidKindTestArgument
  | predicateIgnored
  deriving DecidableEq, Inhabited

namespace DiagnosticKind

/-- Every kind once, in order of priority. -/
def all : List DiagnosticKind :=
  [.unclosedPredicate, .unclosedKindTest, .expectedPath, .expectedStep, .expectedNodeTest,
    .expectedName, .unexpectedToken, .trailingInput, .unknownAxis, .unsupportedAxis,
    .unknownKindTest, .invalidKindTestArgument, .predicateIgnored]

/-- Place in the order of priority, the highest first. -/
def rank : DiagnosticKind → Nat
  | .unclosedPredicate => 0
  | .unclosedKindTest => 1
  | .expectedPath => 2
  | .expectedStep => 3
  | .expectedNodeTest => 4
  | .expectedName => 5
  | .unexpectedToken => 6
  | .trailingInput => 7
  | .unknownAxis => 8
  | .unsupportedAxis => 9
  | .unknownKindTest => 10
  | .invalidKindTestArgument => 11
  | .predicateIgnored => 12

/-- The kind's name in answers. -/
def name : DiagnosticKind → String
  | .unclosedPredicate => "UnclosedPredicate"
  | .unclosedKindTest => "UnclosedKindTest"
  | .expectedPath => "ExpectedPath"
  | .expectedStep => "ExpectedStep"
  | .expectedNodeTest => "ExpectedNodeTest"
  | .expectedName => "ExpectedName"
  | .unexpectedToken => "UnexpectedToken"
  | .trailingInput => "TrailingInput"
  | .unknownAxis => "UnknownAxis"
  | .unsupportedAxis => "UnsupportedAxis"
  | .unknownKindTest => "UnknownKindTest"
  | .invalidKindTestArgument => "InvalidKindTestArgument"
  | .predicateIgnored => "PredicateIgnored"

/-- Only a predicate that is left out of the path leaves the text valid. -/
def severity : DiagnosticKind → Severity
  | .predicateIgnored => .warning
  | _ => .error

/-- Whether a kind outranks another. -/
def suppresses (kind other : DiagnosticKind) : Bool := kind.rank < other.rank

/-- A predicate or kind test that is left open. -/
def isStructural : DiagnosticKind → Bool
  | .unclosedPredicate | .unclosedKindTest => true
  | _ => false

/-- Something that is required and missing. -/
def isRootCause : DiagnosticKind → Bool
  | .expectedPath | .expectedStep | .expectedNodeTest | .expectedName => true
  | _ => false

/-- What a kind says when there is nothing particular to say. -/
def summary : DiagnosticKind → String
  | .unclosedPredicate => "missing closing `]`"
  | .unclosedKindTest => "missing closing `)`"
  | .expectedPath => "expected a path expression"
  | .expectedStep => "expected a step"
  | .expectedNodeTest => "expected a name or kind test"
  | .expectedName => "expected a name"
  | .unexpectedToken => "unexpected token"
  | .trailingInput => "unexpected input after path"
  | .unknownAxis => "unknown axis"
  | .unsupportedAxis => "axis is not supported"
  | .unknownKindTest => "unknown kind test"
  | .invalidKindTestArgument => "invalid kind test argument"
  | .predicateIgnored => "predicate is ignored when matching"

/-- The message of a kind, with the particular case if one is given.  The name of an unknown axis or
kind test becomes the subject of the message; every other detail follows the summary. -/
def message (kind : DiagnosticKind) : Option String → String
  | none => kind.summary
  | some detail =>
      match kind with
      | .unknownAxis => "`" ++ detail ++ "` is not an axis"
      | .unsupportedAxis => "the `" ++ detail ++ "` axis is not supported"
      | .unknownKindTest => "`" ++ detail ++ "()` is not a kind test"
      | .unclosedPredicate | .unclosedKindTest => kind.summary ++ "; " ++ detail
      | _ => kind.summary ++ ": " ++ detail

end DiagnosticKind

end PathCover
