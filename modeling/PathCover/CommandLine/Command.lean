import PathCover.CommandLine.Arguments
import PathCover.Log

/-!
# Commands

What the program can be asked to do, and how it is asked on the command line.
-/

namespace PathCover.CommandLine

/-- When diagnostics are colored. -/
inductive ColorChoice where
  /-- If they are written to a terminal. -/
  | auto
  | always
  | never
  deriving DecidableEq, Inhabited

namespace ColorChoice

def ofName? : String → Option ColorChoice
  | "auto" => some .auto
  | "always" => some .always
  | "never" => some .never
  | _ => none

/-- Whether diagnostics are colored, where `terminal` says if they are written to one. -/
def colors (terminal : Bool) : ColorChoice → Bool
  | .auto => terminal
  | .always => true
  | .never => false

end ColorChoice

/-- The forms in which a parsed path can be shown. -/
inductive View where
  | steps
  | tree (spans : Bool)
  | json
  deriving DecidableEq, Inhabited

inductive Command where
  /-- Show a path as it was understood. -/
  | ast (path : String) (view : View) (color : ColorChoice)
  /-- Say what is wrong with a path. -/
  | check (path : String) (strict : Bool) (color : ColorChoice)
  /-- Say whether a pattern covers a candidate. -/
  | subset (candidate pattern : String) (color : ColorChoice)
  /-- Look up the rules that cover an attribute of an element: all of them or the first one. -/
  | lookUp (file element name : String) (all : Bool)
  deriving DecidableEq, Inhabited

/-- The file that a command reads. -/
def Command.file? : Command → Option String
  | .lookUp file .. => some file
  | _ => none

/-- A command together with the level of the log events to show. -/
structure Invocation where
  level : Level
  command : Command
  deriving DecidableEq, Inhabited

/-- An option without a value. -/
def flag (name : String) : OptionForm := ⟨name, none, none⟩

def colorOption : OptionForm := ⟨"color", none, some fun value => (ColorChoice.ofName? value).isSome⟩

def levelOption : OptionForm := ⟨"log-level", none, some fun value => (Level.ofName? value).isSome⟩

/-- The arguments in front of a command's name. -/
def generalForm : Form := ⟨[levelOption], .command⟩

/-- The arguments after a command's name: those of the command, and the level. -/
def commandForm (options : List OptionForm) (operands : Nat) : Form :=
  ⟨levelOption :: options, .atMost operands⟩

/-- The level that was asked for. -/
def Found.level? (found : Found) : Option Level := (found.value? "log-level").bind Level.ofName?

/-- When to color. -/
def Found.color (found : Found) : ColorChoice :=
  ((found.value? "color").bind ColorChoice.ofName?).getD .auto

/-- The operand at a place, which is called `name` where it is missing. -/
def Found.operand (found : Found) (index : Nat) (name : String) : Except Stop String :=
  match found.operands[index]? with
  | some operand => .ok operand
  | .none => .error (.misuse (.missingOperand name))

/-- The value of an option that has to be given. -/
def Found.required (found : Found) (option : String) : Except Stop String :=
  match found.value? option with
  | some value => .ok value
  | .none => .error (.misuse (.missingOption option))

/-- The view that was asked for. -/
def Found.view (found : Found) : Except Stop View :=
  if found.has "json" then
    if found.has "raw" then .error (.misuse (.conflict "json" "raw")) else .ok .json
  else if found.has "raw" then .ok (.tree (found.has "spans"))
  else .ok .steps

/-- The form of a command's arguments, and the command that they make. -/
structure CommandEntry where
  name : String
  form : Form
  make : Found → Except Stop Command

/-- The commands by name. -/
def entries : List CommandEntry :=
  [{ name := "ast"
     form := commandForm [flag "raw", flag "spans", flag "json", colorOption] 1
     make := fun found => do
       return .ast (← found.operand 0 "a path") (← found.view) found.color },
   { name := "check"
     form := commandForm [flag "strict", colorOption] 1
     make := fun found => do
       return .check (← found.operand 0 "a path") (found.has "strict") found.color },
   { name := "subset"
     form := commandForm [colorOption] 2
     make := fun found => do
       return .subset (← found.operand 0 "a candidate") (← found.operand 1 "a pattern")
         found.color },
   { name := "match"
     form := commandForm
       [⟨"rules", some 'r', some fun value => value != ""⟩,
        ⟨"element", some 'e', some fun _ => true⟩,
        ⟨"attribute", some 'a', some fun _ => true⟩,
        flag "all"] 0
     make := fun found => do
       return .lookUp (← found.required "rules") (← found.required "element")
         (← found.required "attribute") (found.has "all") }]

/-- The entry of a command's name. -/
def entryOf (name : String) : Except Stop CommandEntry :=
  match entries.find? (·.name = name) with
  | some entry => .ok entry
  | none => .error (.misuse (.unknownCommand name))

/-- Help was asked for by name, in general or about one command, which may be `help` itself. -/
def helpOn : List String → Stop
  | [] => .help
  | name :: rest =>
      if name = "help" ∨ entries.any (·.name = name) then
        match rest with
        | [] => .help
        | other :: _ => .misuse (.unknownCommand other)
      else .misuse (.unknownCommand name)

namespace Invocation

/-- The invocation that arguments stand for.  A level after the command's name outweighs one in
front of it. -/
def ofArguments (arguments : List String) : Except Stop Invocation := do
  let (general, rest) ← scan generalForm .none arguments
  match rest with
  | [] => .error (.misuse .missingCommand)
  | "help" :: rest => .error (helpOn rest)
  | name :: rest =>
      let entry ← entryOf name
      let (found, _) ← scan entry.form .none rest
      let command ← entry.make found
      return ⟨((found.level? <|> general.level?).getD .warn), command⟩

end Invocation

/-- The text that is shown when help is asked for. -/
def usage : String :=
  "usage: [--log-level LEVEL] COMMAND\n\n" ++
    "  ast PATH [--raw | --json] [--spans] [--color WHEN]\n" ++
    "  check PATH [--strict] [--color WHEN]\n" ++
    "  subset CANDIDATE PATTERN [--color WHEN]\n" ++
    "  match --rules FILE --element PATH --attribute NAME [--all]\n"

end PathCover.CommandLine
