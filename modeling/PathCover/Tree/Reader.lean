import PathCover.Diagnostic.Basic
import PathCover.Tree.Basic

/-!
# Reading tokens

The state of a reader that goes through the tokens of a text once, and its basic operations.

A reader works under two limits: how many tokens it may consume, and how many groups (predicates
and kind tests) it may have open at once.  Hitting a limit does not stop it.  It remembers the
first limit hit, from then on behaves as if the text had ended wherever it asks whether there is
more, and its result is void.

A reader also counts how often it looks at a token without consuming one.  Past a fixed number of
looks it is stuck, and again its result is void.
-/

namespace PathCover.Tree

/-- The limits under which a text is read.  An absent limit is never hit. -/
structure Limits where
  /-- How many tokens may be consumed, blanks aside. -/
  tokens : Option Nat
  /-- How many groups may be open at once. -/
  depth : Option Nat
  deriving DecidableEq, Inhabited

/-- No limits at all. -/
def Limits.none : Limits := ⟨.none, .none⟩

/-- The limits that hold where a caller names no others. -/
def Limits.standard : Limits := ⟨some 1000000, some 4096⟩

/-- One of the two limits. -/
inductive Limit where
  | tokens
  | depth
  deriving DecidableEq, Inhabited

/-- How many looks at tokens a reader has between two tokens that it consumes. -/
def patience : Nat := 256

structure Reader where
  /-- The tokens not yet consumed, each with the blanks in front of it that are not yet placed. -/
  rest : List Leaf
  /-- The blanks after the last token. -/
  trail : List Token
  /-- The length of the text in bytes. -/
  stop : Nat
  limits : Limits
  /-- How many tokens were consumed. -/
  consumed : Nat
  /-- How many looks were spent since the last consumed token. -/
  looks : Nat
  stuck : Bool
  /-- The first limit that was hit. -/
  exceeded : Option Limit
  /-- The place of the last report, made or left out. -/
  reported : Option Nat
  report : Report

/-- A step of reading. -/
abbrev Reading := StateM Reader

/-- Tokens with the blanks in front of each, and the blanks after the last. -/
def attachBlanks : List Token → List Leaf × List Token
  | [] => ([], [])
  | token :: rest =>
      let (leaves, trail) := attachBlanks rest
      if token.kind.isTrivia then
        match leaves with
        | [] => ([], token :: trail)
        | leaf :: leaves => (⟨token :: leaf.blanks, leaf.token⟩ :: leaves, trail)
      else (⟨[], token⟩ :: leaves, trail)

namespace Reader

/-- A reader at the start of a text. -/
def start (limits : Limits) (stop : Nat) (tokens : List Token) : Reader where
  rest := (attachBlanks tokens).1
  trail := (attachBlanks tokens).2
  stop := stop
  limits := limits
  consumed := 0
  looks := 0
  stuck := false
  exceeded := .none
  reported := .none
  report := []

/-- Spends one look. -/
def spend (reader : Reader) : Reader :=
  { reader with
    looks := reader.looks + 1
    stuck := reader.stuck || patience ≤ reader.looks }

/-- Records a limit that was hit, unless another one was hit before. -/
def exceed (limit : Limit) (reader : Reader) : Reader :=
  { reader with exceeded := reader.exceeded <|> some limit }

/-- Whether the token limit leaves no token to consume. -/
def isSpent (reader : Reader) : Bool :=
  match reader.limits.tokens with
  | .none => false
  | some limit => limit ≤ reader.consumed

/-- Consumes the token in front.  At the token limit it is consumed all the same. -/
def step (reader : Reader) : Reader :=
  let charged := if reader.isSpent then reader.exceed .tokens else reader
  { charged with rest := reader.rest.tail, consumed := reader.consumed + 1, looks := 0 }

/-- Where the next token starts, or the end of the text. -/
def offset (reader : Reader) : Nat :=
  match reader.rest with
  | [] => reader.stop
  | leaf :: _ => leaf.token.start

/-- The span of the next token, or the empty span at the end of the text. -/
def nextSpan (reader : Reader) : Text.Span :=
  match reader.rest with
  | [] => ⟨reader.stop, reader.stop⟩
  | leaf :: _ => leaf.token.span

/-- Whether nothing is left to read, or a limit was hit. -/
def hasEnded (reader : Reader) : Bool := reader.rest.isEmpty || reader.exceeded.isSome

end Reader

/-- Looks at the next token. -/
def look : Reading (Option Leaf) := fun reader => (reader.rest.head?, reader.spend)

/-- Looks at the next token and keeps it in view only if its kind is of the given class. -/
def lookFor (accepted : TokenKind → Bool) : Reading (Option Leaf) :=
  return (← look).filter (accepted ·.kind)

/-- The token after the next one, if it has the given kind.  This costs no look. -/
def secondIf (kind : TokenKind) : Reading (Option Leaf) := fun reader =>
  (reader.rest[1]?.filter (·.kind = kind), reader)

/-- Whether nothing is left to read, or a limit was hit. -/
def ended : Reading Bool := fun reader => (reader.hasEnded, reader)

/-- Whether a limit was hit. -/
def halted : Reading Bool := fun reader => (reader.exceeded.isSome, reader)

/-- Consumes the next token. -/
def advance : Reading Unit := fun reader => ((), reader.step)

/-- Consumes the next token if it has the given kind. -/
def eat (kind : TokenKind) : Reading (Option Leaf) := do
  match ← lookFor (· = kind) with
  | .none => return .none
  | some leaf =>
      advance
      return some leaf

/-- Takes the blanks in front of the next token, which are then placed. -/
def takeBlanks : Reading (List Token) := fun reader =>
  match reader.rest with
  | [] => ([], reader)
  | leaf :: rest => (leaf.blanks, { reader with rest := leaf.bare :: rest })

/-- Where the next token starts, or the end of the text. -/
def offset : Reading Nat := fun reader => (reader.offset, reader)

/-- Looks at the next token for its span. -/
def lookSpan : Reading Text.Span := fun reader => (reader.nextSpan, reader.spend)

/-- Adds a diagnostic that concerns the given place.  Right after a report at the same place it is
left out, for it would only be a consequence of that one. -/
def reportAt (place : Nat) (diagnostic : Diagnostic) : Reading Unit := fun reader =>
  ((), { reader with
    reported := some place
    report := if reader.reported = some place then reader.report
      else reader.report ++ [diagnostic] })

/-- Reports something about the next token. -/
def reportHere (kind : DiagnosticKind) (detail : Option String) : Reading Unit := do
  let span ← lookSpan
  reportAt span.start (.plain kind span detail)

end PathCover.Tree
