import PathCover.Text.Letter
import PathCover.Token.Basic

/-!
# Splitting a text into tokens

Every text is a sequence of lexemes: at each place the longest one that some token pattern accepts.
Characters that start none are garbage.  Lexemes lose nothing of the text, and garbage that stands
together is one token.
-/

namespace PathCover.Token

/-- A token without its place in the text. -/
structure Lexeme where
  kind : TokenKind
  text : List Char
  deriving DecidableEq

/-- Whether a character may start a name. -/
def isNameStart (c : Char) : Bool := Text.isLetter c || c = '_'

/-- Whether a character may stand in a name after its first. -/
def isNamePart (c : Char) : Bool :=
  Text.isLetter c || Text.isNumber c || c = '_' || c = '.' || c = '-'

/-- The blanks that separate tokens. -/
def isSpace (c : Char) : Bool := c = ' ' || c = '\t' || c = '\r' || c = '\n'

/-- How many characters at the front of a text have a property. -/
def run (property : Char → Bool) (text : List Char) : Nat := (text.takeWhile property).length

/-- The length of the longest text in front of `text` that ends a string literal opened by `quote`.
Inside the literal the quote is written twice, so a doubled quote goes on if a quote follows that
ends the literal later, and otherwise the first of the two ends it. -/
def closing? (quote : Char) : List Char → Option Nat
  | [] => none
  | [last] => if last = quote then some 1 else none
  | first :: second :: rest =>
      if first = quote then
        if second = quote then some (((closing? quote rest).map (· + 2)).getD 1) else some 1
      else (closing? quote (second :: rest)).map (· + 1)

/-- The number of further characters of a number whose whole part starts with a digit. -/
def wholeNumber (rest : List Char) : Nat :=
  let whole := run Char.isDigit rest
  match rest.drop whole with
  | '.' :: fraction => whole + 1 + run Char.isDigit fraction
  | _ => whole

/-- The kind of the lexeme that starts with `first`, and how many characters of `rest` belong to
it. -/
def classify (first : Char) (rest : List Char) : TokenKind × Nat :=
  match first with
  | '(' => (.parenOpen, 0)
  | ')' => (.parenClose, 0)
  | '[' => (.bracketOpen, 0)
  | ']' => (.bracketClose, 0)
  | ',' => (.comma, 0)
  | '@' => (.at, 0)
  | '*' => (.star, 0)
  | '?' => (.question, 0)
  | '=' | '+' | '|' | '$' | '-' => (.operator, 0)
  | '<' | '>' => (.operator, if rest.head? = some '=' then 1 else 0)
  | '!' => if rest.head? = some '=' then (.operator, 1) else (.garbage, 0)
  | ':' => if rest.head? = some ':' then (.colonColon, 1) else (.colon, 0)
  | '/' => if rest.head? = some '/' then (.doubleSlash, 1) else (.slash, 0)
  | '.' =>
      if rest.head? = some '.' then (.dotDot, 1)
      else if run Char.isDigit rest = 0 then (.dot, 0)
      else (.number, run Char.isDigit rest)
  | '"' | '\'' =>
      match closing? first rest with
      | some length => (.stringLiteral, length)
      | none => (.garbage, rest.length)
  | _ =>
      if isSpace first then (.whitespace, run isSpace rest)
      else if first.isDigit then (.number, wholeNumber rest)
      else if isNameStart first then (.name, run isNamePart rest)
      else (.garbage, 0)

/-- The lexemes of a text. -/
def lexemes : List Char → List Lexeme
  | [] => []
  | first :: rest =>
      let (kind, length) := classify first rest
      ⟨kind, first :: rest.take length⟩ :: lexemes (rest.drop length)
termination_by text => text.length
decreasing_by simp only [List.length_drop, List.length_cons]; omega

/-- Puts a lexeme in front of others; garbage joins the garbage that follows it. -/
def Lexeme.joinTo (lexeme : Lexeme) : List Lexeme → List Lexeme
  | [] => [lexeme]
  | next :: rest =>
      if lexeme.kind = .garbage ∧ next.kind = .garbage then
        ⟨.garbage, lexeme.text ++ next.text⟩ :: rest
      else lexeme :: next :: rest

/-- Makes one lexeme of garbage that stands together. -/
def joinGarbage (parts : List Lexeme) : List Lexeme := parts.foldr Lexeme.joinTo []

/-- Gives every lexeme its place, the first one the place `start`. -/
def place (start : Nat) : List Lexeme → List Token
  | [] => []
  | lexeme :: rest =>
      let token : Token := ⟨lexeme.kind, start, String.ofList lexeme.text⟩
      token :: place token.stop rest

/-- The tokens of a text, in order and without gaps. -/
def lex (text : String) : List Token := place 0 (joinGarbage (lexemes text.toList))

end PathCover.Token
