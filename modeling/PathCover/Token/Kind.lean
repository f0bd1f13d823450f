/-!
# Kinds of tokens
-/

namespace PathCover

/-- The kind of a token. -/
inductive TokenKind where
  | parenOpen
  | parenClose
  | bracketOpen
  | bracketClose
  | comma
  | colonColon
  | colon
  | doubleSlash
  | slash
  | dotDot
  | dot
  | at
  | star
  | question
  /-- A comparison or arithmetic sign, which has a meaning only inside predicates. -/
  | operator
  | stringLiteral
  | number
  | name
  | whitespace
  /-- A run of characters that start no other token. -/
  | garbage
  deriving DecidableEq, Inhabited

namespace TokenKind

/-- Every token kind once, in the order of their codes. -/
def all : List TokenKind :=
  [.parenOpen, .parenClose, .bracketOpen, .bracketClose, .comma, .colonColon, .colon,
    .doubleSlash, .slash, .dotDot, .dot, .at, .star, .question, .operator, .stringLiteral,
    .number, .name, .whitespace, .garbage]

/-- The name under which a dump shows a token kind. -/
def render : TokenKind → String
  | .parenOpen => "ParenOpen"
  | .parenClose => "ParenClose"
  | .bracketOpen => "BracketOpen"
  | .bracketClose => "BracketClose"
  | .comma => "Comma"
  | .colonColon => "ColonColon"
  | .colon => "Colon"
  | .doubleSlash => "DoubleSlash"
  | .slash => "Slash"
  | .dotDot => "DotDot"
  | .dot => "Dot"
  | .at => "At"
  | .star => "Star"
  | .question => "Question"
  | .operator => "Operator"
  | .stringLiteral => "StringLiteral"
  | .number => "Number"
  | .name => "Name"
  | .whitespace => "Whitespace"
  | .garbage => "Garbage"

/-- Whether tokens of a kind only stand between others. -/
def isTrivia : TokenKind → Bool
  | .whitespace => true
  | _ => false

/-- `/` and `//`. -/
def isSeparator : TokenKind → Bool
  | .slash | .doubleSlash => true
  | _ => false

/-- The tokens that a step can start with. -/
def startsStep : TokenKind → Bool
  | .name | .star | .at | .dot | .dotDot => true
  | _ => false

/-- The tokens that a name test can start with. -/
def startsNameTest : TokenKind → Bool
  | .name | .star => true
  | _ => false

/-- The tokens that end the argument list of a kind test, be it closed or not. -/
def endsArguments : TokenKind → Bool
  | .parenClose | .slash | .doubleSlash | .bracketOpen | .bracketClose => true
  | _ => false

end TokenKind

end PathCover
