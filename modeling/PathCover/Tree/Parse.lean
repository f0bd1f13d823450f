import PathCover.Token.Lexer
import PathCover.Tree.Grammar

/-!
# From text to tree

Reading fails only when a limit is hit or the reader is stuck.  Every other text, well-formed or
not, has a tree and a report of what is wrong with it.
-/

namespace PathCover.Tree

/-- Why a text has no tree. -/
inductive Failure where
  | limit (limit : Limit)
  /-- Too many looks were spent on one token. -/
  | stuck
  deriving DecidableEq, Inhabited

def Limit.message : Limit → String
  | .tokens => "execution limit exceeded"
  | .depth => "recursion limit exceeded"

/-- The tree of a text and what was found wrong on the way. -/
structure Parsed where
  root : Root
  report : Report
  /-- How many tokens were consumed, where their number is limited. -/
  consumed : Nat

/-- What a finished reader has to show. -/
def outcome (root : Root) (reader : Reader) : Except Failure Parsed :=
  if reader.stuck then .error .stuck
  else
    match reader.exceeded with
    | some limit => .error (.limit limit)
    | .none =>
        .ok ⟨root, reader.report, if reader.limits.tokens.isSome then reader.consumed else 0⟩

/-- Reads the tree of a text. -/
def parse (limits : Limits) (text : String) : Except Failure Parsed :=
  let reader := Reader.start limits text.utf8ByteSize (Token.lex text)
  let (root, reader) := (root (reader.rest.length + 1)).run reader
  outcome root reader

end PathCover.Tree
