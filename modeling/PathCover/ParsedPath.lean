import PathCover.Coverage.Walk
import PathCover.Tree.Meaning
import PathCover.Tree.Parse

/-!
# Parsed path texts

The text of a path together with its tree, the path that it stands for and everything there is to
report about it.  The path means what the text says only if the text is valid.
-/

namespace PathCover

structure ParsedPath where
  text : String
  root : Tree.Root
  path : Path
  /-- What was found wrong with the text, and then with its meaning. -/
  report : Report
  /-- How many tokens were consumed, where their number is limited. -/
  consumed : Nat

namespace ParsedPath

/-- A read tree with its meaning. -/
def ofParsed (text : String) (parsed : Tree.Parsed) : ParsedPath where
  text := text
  root := parsed.root
  path := parsed.root.meaning
  report := parsed.report ++ parsed.root.report
  consumed := parsed.consumed

/-- Parses a text.  This fails only if a limit is hit or the reader is stuck. -/
def parse (limits : Tree.Limits) (text : String) : Except Tree.Failure ParsedPath :=
  (Tree.parse limits text).map (ofParsed text)

/-- The log event of a parse. -/
def event (parsed : ParsedPath) : Event :=
  ⟨.trace, "parsed path",
    [("source", parsed.text), ("exec_fuel_consumed", toString parsed.consumed)]⟩

/-- Parses a text with a log. -/
def parseLogged (limits : Tree.Limits) (text : String) :
    Logged (Except Tree.Failure ParsedPath) :=
  let parsed := parse limits text
  ⟨parsed, parsed.toOption.toList.map event⟩

/-- A text is valid if nothing worse than a warning is reported. -/
def isValid (parsed : ParsedPath) : Bool := !parsed.report.hasErrors

/-- The part of the report that is worth showing. -/
def diagnostics (parsed : ParsedPath) : Report := parsed.report.filtered

end ParsedPath

/-- Why a question about path texts has no answer. -/
inductive PathError where
  | failure (cause : Tree.Failure)
  /-- A text is not a path; the report is worth showing as it is. -/
  | invalid (report : Report)
  | notAbsolute (fault : Coverage.NotAbsolute)
  deriving DecidableEq, Inhabited

/-- The message of an error.  A reader that is stuck has the message of a broken assertion. -/
def PathError.message : PathError → String
  | .failure (.limit limit) => limit.message
  | .failure .stuck => "parser is stuck: too many lookaheads"
  | .invalid report => "path parsing failed with " ++ toString report.errorCount ++ " errors"
  | .notAbsolute fault => fault.message

/-- The path of a parsed text, if the text is valid. -/
def ParsedPath.toPath (parsed : ParsedPath) : Except PathError Path :=
  if parsed.isValid then .ok parsed.path else .error (.invalid parsed.diagnostics)

/-- The path of the outcome of a parse. -/
def pathOfOutcome : Except Tree.Failure ParsedPath → Except PathError Path
  | .error failure => .error (.failure failure)
  | .ok parsed => parsed.toPath

namespace Path

/-- The path that a text stands for, under the standard limits. -/
def ofText (text : String) : Except PathError Path :=
  pathOfOutcome (ParsedPath.parse .standard text)

/-- The path that a text stands for, with a log. -/
def ofTextLogged (text : String) : Logged (Except PathError Path) := do
  return pathOfOutcome (← ParsedPath.parseLogged .standard text)

/-- Whether a text is an absolute path. -/
def isAbsoluteText (text : String) : Logged (Except PathError Bool) := do
  return (← ofTextLogged text).map Path.isAbsolute

/-- Whether one path text covers another.  The candidate is read first. -/
def coveredByText (candidate pattern : String) : Logged (Except PathError Bool) := do
  match ← ofTextLogged candidate with
  | .error error => return .error error
  | .ok candidate =>
      match ← ofTextLogged pattern with
      | .error error => return .error error
      | .ok pattern => return (← Coverage.checkLogged candidate pattern).mapError .notAbsolute

end Path

end PathCover
