import PathCover.CommandLine.Command
import PathCover.Diagnostic.Snippet
import PathCover.Dump
import PathCover.Path.Json
import PathCover.Rule.Load
import PathCover.Rule.Matcher

/-!
# Running commands

What a command writes, and the code with which the program ends: 0 on success, 1 if an answer cannot
be given or a path is not valid, 2 for arguments that cannot be used, and 101 if a reader is stuck.
-/

namespace PathCover.CommandLine

structure Outcome where
  code : Nat
  output : String
  errors : String
  deriving DecidableEq, Inhabited

namespace Outcome

/-- Something was written and nothing is wrong. -/
def success (output : String) : Outcome := ⟨0, output, ""⟩

/-- An answer cannot be given. -/
def failure (message : String) : Outcome := ⟨1, "", "error: " ++ message ++ "\n"⟩

/-- A question about paths cannot be answered. -/
def ofError : PathError → Outcome
  | .failure .stuck => ⟨101, "", (PathError.failure .stuck).message ++ "\n"⟩
  | error => failure error.message

/-- The same, but what is wrong with a text is shown in the text. -/
def ofErrorIn (colored : Bool) (text : String) : PathError → Outcome
  | .invalid report => ⟨1, "", report.renderSnippets ⟨none, colored⟩ text⟩
  | error => ofError error

/-- The arguments cannot be used, or ask for help. -/
def ofStop : Stop → Outcome
  | .help => success usage
  | .misuse error => ⟨2, "", "error: " ++ error.message ++ "\n\n" ++ usage⟩

end Outcome

/-- What there is to show about a parsed path, in its text. -/
def warnings (colored : Bool) (parsed : ParsedPath) : String :=
  parsed.diagnostics.renderSnippets ⟨none, colored⟩ parsed.text

/-- A path as it was understood.  The tree is shown even if the text is not valid. -/
def runAst (colored : Bool) (path : String) (view : View) : Logged Outcome := do
  match ← ParsedPath.parseLogged .standard path with
  | .error failure => return .ofError (.failure failure)
  | .ok parsed =>
      let code := if parsed.isValid then 0 else 1
      let output :=
        match view with
        | .tree spans => Dump.tree ⟨false, spans⟩ parsed
        | .steps => if parsed.isValid then Dump.path parsed.path else ""
        | .json => if parsed.isValid then (Path.toJson parsed.path).pretty 0 ++ "\n" else ""
      return ⟨code, output, warnings colored parsed⟩

/-- What is wrong with a path, silent if it is nothing.  A strict check fails on warnings too. -/
def runCheck (colored : Bool) (path : String) (strict : Bool) : Logged Outcome := do
  match ← ParsedPath.parseLogged .standard path with
  | .error failure => return .ofError (.failure failure)
  | .ok parsed =>
      let passes :=
        if strict then !parsed.diagnostics.hasErrors && !parsed.diagnostics.hasWarnings
        else parsed.isValid
      return ⟨if passes then 0 else 1, "", warnings colored parsed⟩

/-- The event of an answered coverage question. -/
def coverageChecked (candidate pattern : Path) (covered : Bool) : Event :=
  ⟨.debug, "checked coverage",
    [("candidate", candidate.render), ("pattern", pattern.render),
      ("covered", Event.truth covered)]⟩

/-- Whether a pattern covers a candidate.  The candidate is read first. -/
def runSubset (colored : Bool) (candidate pattern : String) : Logged Outcome := do
  match ← Path.ofTextLogged candidate with
  | .error error => return .ofErrorIn colored candidate error
  | .ok candidatePath =>
      match ← Path.ofTextLogged pattern with
      | .error error => return .ofErrorIn colored pattern error
      | .ok patternPath =>
          match ← Coverage.checkLogged candidatePath patternPath with
          | .error fault => return .ofError (.notAbsolute fault)
          | .ok covered =>
              Logged.emit (coverageChecked candidatePath patternPath covered)
              return .success (Event.truth covered ++ "\n")

/-- The JSON form of a match. -/
def matchJson (found : RuleMatch) : Json :=
  .object
    [("index", .natural found.index),
      ("pattern", .text found.pattern.render),
      ("rule", found.rule.toJson),
      ("selectionPath", Json.optionalText found.selectionPath),
      ("dependentPath", Json.optionalText found.dependentPath)]

/-- A JSON value over several lines, with the members of objects in the order of their keys. -/
def prettySorted (value : Json) : String := value.sortKeys.pretty 0 ++ "\n"

/-- The outcome of a look-up. -/
def lookUpOutcome {α : Type} (json : α → Json) : Except PathError α → Outcome
  | .error error => .ofError error
  | .ok found => .success (prettySorted (json found))

/-- The rules in a file that cover an attribute, where `contents` comes of reading the file. -/
def runLookUp (contents : Except FileFault ByteArray) (file element name : String) (all : Bool) :
    Logged Outcome := do
  match RuleSet.load file contents with
  | .error error => return .failure error.message
  | .ok rules =>
      Logged.emit ⟨.info, "loaded rule set",
        [("path", file), ("rules", toString rules.length)]⟩
      if all then
        let (found, _) ← (Matcher.ofRules rules).matching element name
        return lookUpOutcome (fun found => .array (found.map matchJson)) found
      else
        let (found, _) ← (Matcher.ofRules rules).find element name
        return lookUpOutcome (Json.optional matchJson) found

/-- Runs a command.  `terminal` says whether errors are written to a terminal, and `contents` is
what comes of reading the command's file. -/
def Command.run (terminal : Bool) (contents : Except FileFault ByteArray) :
    Command → Logged Outcome
  | .ast path view color => runAst (color.colors terminal) path view
  | .check path strict color => runCheck (color.colors terminal) path strict
  | .subset candidate pattern color => runSubset (color.colors terminal) candidate pattern
  | .lookUp file element name all => runLookUp contents file element name all

end PathCover.CommandLine
