import PathCover.CommandLine.Run

/-!
# The program

Reads the arguments and the file that they name, and writes what comes of them.
-/

namespace PathCover.CommandLine

/-- The contents of a file. -/
def contentsOf (file : String) : IO (Except FileFault ByteArray) := do
  try
    return .ok (← IO.FS.readBinFile file)
  catch
    | .noFileOrDirectory .. => return .error .notFound
    | .inappropriateType .. => return .error .isDirectory
    | _ => return .error .other

/-- A log event on one line. -/
def eventLine (event : Event) : String :=
  event.level.render ++ " " ++ event.message ++
    String.join (event.fields.map fun field => " " ++ field.1 ++ "=" ++ field.2) ++ "\n"

/-- Writes an outcome and returns its code. -/
def write (outcome : Outcome) : IO UInt32 := do
  (← IO.getStdout).putStr outcome.output
  (← IO.getStderr).putStr outcome.errors
  return outcome.code.toUInt32

end PathCover.CommandLine

open PathCover.CommandLine in
def main (arguments : List String) : IO UInt32 := do
  match Invocation.ofArguments arguments with
  | .error stop => write (.ofStop stop)
  | .ok ⟨level, command⟩ =>
      let errors ← IO.getStderr
      let contents ← match command.file? with
        | some file => contentsOf file
        | none => pure (.error .notFound)
      let outcome := command.run (← errors.isTty) contents
      for event in outcome.events do
        if event.level.shownAt level then errors.putStr (eventLine event)
      write outcome.value
