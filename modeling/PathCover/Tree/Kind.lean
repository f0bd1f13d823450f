import PathCover.Token.Kind

/-!
# Kinds of tree elements

A syntax tree has tokens as its leaves.  Token kinds and node kinds share one row of codes, tokens
first.
-/

namespace PathCover

/-- The kind of an inner node of a syntax tree. -/
inductive NodeKind where
  /-- Tokens that fit nowhere. -/
  | error
  | root
  | path
  | step
  | axisSpec
  | nameTest
  | kindTest
  | predicate
  deriving DecidableEq, Inhabited

namespace NodeKind

/-- Every node kind once, in the order of their codes. -/
def all : List NodeKind :=
  [.error, .root, .path, .step, .axisSpec, .nameTest, .kindTest, .predicate]

/-- The name under which a dump shows a node kind. -/
def render : NodeKind → String
  | .error => "Error"
  | .root => "Root"
  | .path => "Path"
  | .step => "Step"
  | .axisSpec => "AxisSpec"
  | .nameTest => "NameTest"
  | .kindTest => "KindTest"
  | .predicate => "Predicate"

end NodeKind

/-- The kind of an element of a syntax tree. -/
inductive ElementKind where
  | token (kind : TokenKind)
  | node (kind : NodeKind)
  deriving DecidableEq, Inhabited

namespace ElementKind

/-- Every kind once, in the order of their codes. -/
def all : List ElementKind := TokenKind.all.map .token ++ NodeKind.all.map .node

/-- The kind with a given code. -/
def ofCode? (code : Nat) : Option ElementKind := all[code]?

def render : ElementKind → String
  | .token kind => kind.render
  | .node kind => kind.render

/-- Whether a kind belongs to a class of token kinds. -/
def isToken (property : TokenKind → Bool) : ElementKind → Bool
  | .token kind => property kind
  | .node _ => false

/-- A set of kinds in the order of their codes, each member once. -/
def renderSet (members : List ElementKind) : String :=
  "\x7b" ++ ", ".intercalate ((all.filter (members.contains ·)).map render) ++ "\x7d"

end ElementKind

end PathCover
