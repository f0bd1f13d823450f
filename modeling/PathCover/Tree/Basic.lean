import PathCover.Tree.Kind
import PathCover.Token.Basic

/-!
# Syntax trees

The shape of a parsed text, well-formed or not.  Each type has a place for everything that the text
may hold there, so a tree loses nothing: a part that is missing is an absent field, and tokens that
fit nowhere have fields of their own.

The blanks in front of a token belong to the innermost node that holds the token and does not start
with it.  So a node carries, as its `lead`, the blanks that stand in front of it in its parent.
-/

namespace PathCover.Tree

/-- A token together with the blanks in front of it inside the same node. -/
structure Leaf where
  blanks : List Token
  token : Token
  deriving DecidableEq, Inhabited

namespace Leaf

/-- The same token without the blanks. -/
def bare (leaf : Leaf) : Leaf := ⟨[], leaf.token⟩

def kind (leaf : Leaf) : TokenKind := leaf.token.kind

end Leaf

/-- A name test: a name or `*`, and after a colon another one. -/
structure NameTest where
  lead : List Token
  first : Leaf
  colon : Option Leaf
  second : Option Leaf
  deriving DecidableEq, Inhabited

namespace NameTest

/-- The token in front of the colon, if a colon was written. -/
def qualifier (test : NameTest) : Option Token := test.colon.map fun _ => test.first.token

/-- The token that names the local part, unless it is missing after a colon. -/
def localPart (test : NameTest) : Option Token :=
  match test.colon with
  | none => some test.first.token
  | some _ => test.second.map Leaf.token

end NameTest

/-- What can stand between the parentheses of a kind test. -/
inductive Argument where
  | name (test : NameTest)
  /-- `,`, `?` or a string. -/
  | mark (part : Leaf)
  /-- A token that fits nowhere, as a node of its own. -/
  | stray (lead : List Token) (token : Token)
  /-- A kind test inside a kind test. -/
  | nested (lead : List Token) (keyword opener : Leaf) (arguments : List Argument)
      (closer : Option Leaf)
  deriving Inhabited

/-- A kind test: a keyword, and between parentheses its arguments. -/
structure KindTest where
  lead : List Token
  keyword : Leaf
  opener : Leaf
  arguments : List Argument
  closer : Option Leaf
  deriving Inhabited

/-- A kind test as an argument of another. -/
def KindTest.toArgument (test : KindTest) : Argument :=
  .nested test.lead test.keyword test.opener test.arguments test.closer

/-- What can stand between the brackets of a predicate: any tokens, and predicates inside it. -/
inductive PredicateItem where
  | leaf (part : Leaf)
  | nested (lead : List Token) (opener : Leaf) (items : List PredicateItem)
      (closer : Option Leaf)
  deriving Inhabited

/-- A predicate, whose contents have no meaning here beyond their brackets. -/
structure Predicate where
  lead : List Token
  opener : Leaf
  items : List PredicateItem
  closer : Option Leaf
  deriving Inhabited

/-- A predicate as part of another. -/
def Predicate.toItem (predicate : Predicate) : PredicateItem :=
  .nested predicate.lead predicate.opener predicate.items predicate.closer

inductive NodeTest where
  | name (test : NameTest)
  | kind (test : KindTest)
  deriving Inhabited

/-- What is written in front of a node test to choose the axis. -/
inductive AxisMark where
  /-- `@` -/
  | short (sign : Leaf)
  /-- An axis name and `::`. -/
  | named (name colons : Leaf)
  deriving Inhabited

/-- A step without its predicates. -/
inductive StepBody where
  /-- `.` or `..` -/
  | abbreviated (sign : Leaf)
  /-- A node test, unless it is missing, after an optional axis. -/
  | tested (axis : Option AxisMark) (test : Option NodeTest)
  deriving Inhabited

structure Step where
  lead : List Token
  start : Nat
  body : StepBody
  predicates : List Predicate
  deriving Inhabited

inductive PathPart where
  | separator (part : Leaf)
  | step (part : Step)
  deriving Inhabited

/-- The path proper: separators and steps as they stand in the text. -/
structure Path where
  lead : List Token
  start : Nat
  parts : List PathPart
  deriving Inhabited

/-- What follows the path and fits nowhere. -/
structure Surplus where
  lead : List Token
  start : Nat
  leaves : List Leaf
  deriving Inhabited

/-- The whole text: a path, unless there are only blanks, what follows it, and the blanks at the
end. -/
structure Root where
  path : Option Path
  surplus : Option Surplus
  trail : List Token
  deriving Inhabited

end PathCover.Tree
