/-!
# Command-line arguments

Arguments are read from left to right against a table of options.  An option is written `--name`,
and `-n` if it has a letter.  Its value follows in the same argument or is the next one, which then
must not look like an option.  What is no option is an operand, and after `--` everything is.
-/

namespace PathCover.CommandLine

/-- An option and the values that it accepts. -/
structure OptionForm where
  name : String
  letter : Option Char
  /-- The test that a value has to pass; absent if the option takes no value. -/
  accepts : Option (String → Bool)

/-- How many operands there may be. -/
inductive Operands where
  | atMost (count : Nat)
  /-- The first operand names a command, to which all arguments after it belong. -/
  | command

structure Form where
  options : List OptionForm
  operands : Operands

/-- Why arguments cannot be used. -/
inductive UsageError where
  | unknownOption (name : String)
  | missingValue (option : String)
  | unexpectedValue (option value : String)
  | invalidValue (option value : String)
  | repeatedOption (option : String)
  | missingOption (option : String)
  | conflict (option other : String)
  | unexpectedOperand (operand : String)
  | missingOperand (name : String)
  | missingCommand
  | unknownCommand (name : String)
  deriving DecidableEq, Inhabited

def UsageError.message : UsageError → String
  | .unknownOption name => "unknown option `" ++ name ++ "`"
  | .missingValue option => "`--" ++ option ++ "` needs a value"
  | .unexpectedValue option value => "`--" ++ option ++ "` takes no value, got `" ++ value ++ "`"
  | .invalidValue option value => "`" ++ value ++ "` is not a value of `--" ++ option ++ "`"
  | .repeatedOption option => "`--" ++ option ++ "` is given twice"
  | .missingOption option => "`--" ++ option ++ "` is required"
  | .conflict option other => "`--" ++ option ++ "` cannot be used with `--" ++ other ++ "`"
  | .unexpectedOperand operand => "unexpected argument `" ++ operand ++ "`"
  | .missingOperand name => name ++ " is required"
  | .missingCommand => "a command is required"
  | .unknownCommand name => "unknown command `" ++ name ++ "`"

/-- Why the arguments are not read to their end. -/
inductive Stop where
  /-- Help was asked for. -/
  | help
  | misuse (error : UsageError)
  deriving DecidableEq, Inhabited

/-- The form of a single argument. -/
inductive Argument where
  /-- `--` -/
  | divider
  | long (name : String) (value : Option String)
  | short (letter : Char) (value : Option String)
  | operand (text : String)
  deriving DecidableEq, Inhabited

/-- The value in the text behind the letter of an option. -/
def letterValue : List Char → Option String
  | [] => none
  | '=' :: value => some (String.ofList value)
  | value => some (String.ofList value)

/-- The form of an argument.  A single hyphen is an operand. -/
def Argument.ofText (text : String) : Argument :=
  match text.toList with
  | ['-', '-'] => .divider
  | '-' :: '-' :: body =>
      match body.span (· != '=') with
      | (name, []) => .long (String.ofList name) none
      | (name, _ :: value) => .long (String.ofList name) (some (String.ofList value))
  | '-' :: letter :: body => .short letter (letterValue body)
  | _ => .operand text

/-- What was read so far. -/
structure Found where
  /-- The options with their values, which are empty where there is none to give. -/
  given : List (String × String)
  operands : List String
  /-- An option whose value has to come next. -/
  pending : Option OptionForm

namespace Found

/-- Nothing read so far. -/
def none : Found := ⟨[], [], .none⟩

/-- Whether an option was given. -/
def has (found : Found) (option : String) : Bool := found.given.any (·.1 = option)

/-- The value of an option, if it was given. -/
def value? (found : Found) (option : String) : Option String :=
  (found.given.find? (·.1 = option)).map (·.2)

/-- Records an option, which must not have been given before. -/
def give (found : Found) (option : OptionForm) (value : String) : Except Stop Found :=
  if found.has option.name then .error (.misuse (.repeatedOption option.name))
  else .ok { found with given := (option.name, value) :: found.given, pending := .none }

/-- Records an option with a value that it has to accept. -/
def giveValue (found : Found) (option : OptionForm) (accepts : String → Bool) (value : String) :
    Except Stop Found :=
  if accepts value then found.give option value
  else .error (.misuse (.invalidValue option.name value))

/-- Goes on after the name of an option and the value in the same argument, if there is one. -/
def meet (found : Found) (option : OptionForm) : Option String → Except Stop Found
  | .none =>
      match option.accepts with
      | .none => found.give option ""
      | some _ => .ok { found with pending := some option }
  | some value =>
      match option.accepts with
      | .none => .error (.misuse (.unexpectedValue option.name value))
      | some accepts => found.giveValue option accepts value

/-- Records one more operand, if there is room for it. -/
def addOperand (found : Found) (count : Nat) (operand : String) : Except Stop Found :=
  if found.operands.length < count then
    .ok { found with operands := found.operands ++ [operand] }
  else .error (.misuse (.unexpectedOperand operand))

/-- Records an option by its name. -/
def meetLong (found : Found) (form : Form) (name : String) (value : Option String) :
    Except Stop Found :=
  match form.options.find? (·.name = name) with
  | some option => found.meet option value
  | .none =>
      if name = "help" ∧ value = .none then .error .help
      else .error (.misuse (.unknownOption ("--" ++ name)))

/-- Records an option by its letter. -/
def meetShort (found : Found) (form : Form) (letter : Char) (value : Option String) :
    Except Stop Found :=
  match form.options.find? (·.letter = some letter) with
  | some option => found.meet option value
  | .none =>
      if letter = 'h' then .error .help
      else .error (.misuse (.unknownOption (String.ofList ['-', letter])))

end Found

/-- Reads arguments up to their end or to the name of a command, with which the rest that is
returned begins. -/
def scan (form : Form) (found : Found) : List String → Except Stop (Found × List String)
  | [] =>
      match found.pending with
      | some option => .error (.misuse (.missingValue option.name))
      | none => .ok (found, [])
  | text :: rest =>
      match found.pending, Argument.ofText text with
      | some option, .operand value => do
          scan form (← found.giveValue option (option.accepts.getD fun _ => true) value) rest
      | some option, _ => .error (.misuse (.missingValue option.name))
      | none, .long name value => do scan form (← found.meetLong form name value) rest
      | none, .short letter value => do scan form (← found.meetShort form letter value) rest
      | none, .operand operand =>
          match form.operands with
          | .command => .ok (found, text :: rest)
          | .atMost count => do scan form (← found.addOperand count operand) rest
      | none, .divider =>
          match form.operands with
          | .command => .error (.misuse .missingCommand)
          | .atMost count => do return (← rest.foldlM (Found.addOperand · count) found, [])

end PathCover.CommandLine
