import PathCover.ParsedPath
import PathCover.Text.Quoted

/-!
# Dumps

A parsed path as lines of text, for people: either the steps that it stands for, or its syntax tree
with one element a line, children below their parent and further to the right.
-/

namespace PathCover.Dump

/-- What a dump of a syntax tree shows beyond nodes and tokens. -/
structure Options where
  /-- Whether blanks are shown. -/
  trivia : Bool
  /-- Whether spans are shown. -/
  spans : Bool
  deriving DecidableEq, Inhabited

def spanText (options : Options) (span : Text.Span) : String :=
  if options.spans then " [" ++ span.render ++ "]" else ""

/-- The space in front of a line at a given depth. -/
def indent (depth : Nat) : String := String.ofList (List.replicate (2 * depth) ' ')

/-- The line of a token, unless it is a blank that is not to be shown. -/
def tokenLine (options : Options) (depth : Nat) (token : Token) : String :=
  if options.trivia || !token.kind.isTrivia then
    indent depth ++ token.kind.render ++ spanText options token.span ++ " " ++
      Text.quoted token.text ++ "\n"
  else ""

mutual

/-- The lines of an element and of what is below it. -/
def elementLines (options : Options) (depth : Nat) : Tree.Element → String
  | .leaf token => tokenLine options depth token
  | .node kind start children =>
      indent depth ++ kind.render ++
        spanText options (Tree.Element.node kind start children).span ++ "\n" ++
        childLines options (depth + 1) children

/-- The lines of several elements. -/
def childLines (options : Options) (depth : Nat) : List Tree.Element → String
  | [] => ""
  | child :: rest => elementLines options depth child ++ childLines options depth rest

end

/-- The syntax tree of a parsed path. -/
def tree (options : Options) (parsed : ParsedPath) : String :=
  elementLines options 0 parsed.root.element

/-- The line of one step of a path.  The axis is always written out. -/
def stepLine : Step → String
  | .separator .child => "  Separator Child\n"
  | .separator .descendantOrSelf => "  Separator DescendantOrSelf\n"
  | .axis step => "  Step " ++ step.axis.render ++ "::" ++ step.test.render ++ "\n"

/-- The steps of a path, below its written form. -/
def path (path : Path) : String :=
  "PathExpr " ++ path.render ++ "\n" ++ String.join (path.map stepLine)

end PathCover.Dump
