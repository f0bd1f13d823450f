import PathCover.Json.Read
import PathCover.Json.Value
import PathCover.Rule.Basic

/-!
# Rule sets as JSON

A rule set is an object whose only field is the list of its rules.  Fields that are absent from a
rule are left out when it is written, and so are its bindings if there are none.
-/

namespace PathCover

open Json

/-- A field that is written only if there is something to write. -/
def Json.optionalField (name : String) : Option Json → List (String × Json)
  | none => []
  | some value => [(name, value)]

namespace Selection

def toJson (selection : Selection) : Json :=
  .object (("path", .text selection.path) ::
    optionalField "label" (selection.label.map .text))

/-- The fields of a selection that were met so far. -/
structure Fields where
  path : Option String := none
  label : Option (Option String) := none

def readMember (key : String) (fields : Fields) : Read Fields :=
  match key with
  | "path" => do
      let path ← readField key fields.path readText
      return { fields with path }
  | "label" => do
      let label ← readField key fields.label (readOption readText)
      return { fields with label }
  | _ => do
      skipField
      return fields

def read (room : Nat) : Read Selection :=
  readRecord "struct Selection" room
    (fun _ => do
      let path ← readElement "struct Selection" 0 2 readText
      return ⟨path, ← readElementOr none 1 (readOption readText)⟩)
    (fun _ => do
      let fields ← readMembers readString readMember ((← get).length + 1) true {}
      return ⟨← requireField "path" fields.path, fields.label.getD none⟩)

end Selection

namespace Dependent

def toJson (dependent : Dependent) : Json :=
  .object (("attribute", .text dependent.target) ::
    (optionalField "default" (dependent.fallback.map .text) ++
      optionalField "label" (dependent.label.map .text)))

/-- The fields of a dependent attribute that were met so far. -/
structure Fields where
  target : Option String := none
  fallback : Option (Option String) := none
  label : Option (Option String) := none

def readMember (key : String) (fields : Fields) : Read Fields :=
  match key with
  | "attribute" => do
      let target ← readField key fields.target readText
      return { fields with target }
  | "default" => do
      let fallback ← readField key fields.fallback (readOption readText)
      return { fields with fallback }
  | "label" => do
      let label ← readField key fields.label (readOption readText)
      return { fields with label }
  | _ => do
      skipField
      return fields

def read (room : Nat) : Read Dependent :=
  readRecord "struct Dependent" room
    (fun _ => do
      let target ← readElement "struct Dependent" 0 3 readText
      let fallback ← readElementOr none 1 (readOption readText)
      return ⟨target, fallback, ← readElementOr none 2 (readOption readText)⟩)
    (fun _ => do
      let fields ← readMembers readString readMember ((← get).length + 1) true {}
      return ⟨← requireField "attribute" fields.target, fields.fallback.getD none,
        fields.label.getD none⟩)

end Dependent

namespace Rule

/-- The bindings of a rule as an object. -/
def bindingsJson (bindings : List (String × String)) : Json :=
  .object (bindings.map fun binding => (binding.1, .text binding.2))

def toJson (rule : Rule) : Json :=
  .object
    (optionalField "namespaceBindings"
        (if rule.bindings.isEmpty then none else some (bindingsJson rule.bindings)) ++
      [("context", .text rule.context), ("attribute", .text rule.target)] ++
      optionalField "selection" (rule.selection.map Selection.toJson) ++
      optionalField "dependent" (rule.dependent.map Dependent.toJson))

/-- Bindings; of several for one qualifier the last one holds, at the place of the first. -/
def readBindings (room : Nat) : Read (List (String × String)) := do
  match ← peek with
  | none => fault .truncated
  | some '\x7b' =>
      inside room fun _ => do
        let bindings ← readMembers readString
          (fun qualifier bindings => do
            readColon
            return bind qualifier (← readText) bindings)
          ((← get).length + 1) true []
        endObject
        return bindings
  | some _ => refuse "a map"

/-- The fields of a rule that were met so far. -/
structure Fields where
  bindings : Option (List (String × String)) := none
  context : Option String := none
  target : Option String := none
  selection : Option (Option Selection) := none
  dependent : Option (Option Dependent) := none

def readMember (room : Nat) (key : String) (fields : Fields) : Read Fields :=
  match key with
  | "namespaceBindings" => do
      let bindings ← readField key fields.bindings (readBindings room)
      return { fields with bindings }
  | "context" => do
      let context ← readField key fields.context readText
      return { fields with context }
  | "attribute" => do
      let target ← readField key fields.target readText
      return { fields with target }
  | "selection" => do
      let selection ← readField key fields.selection (readOption (Selection.read room))
      return { fields with selection }
  | "dependent" => do
      let dependent ← readField key fields.dependent (readOption (Dependent.read room))
      return { fields with dependent }
  | _ => do
      skipField
      return fields

/-- What a rule is called in a message. -/
def expected : String := "struct AutoCompleteRule"

def read (room : Nat) : Read Rule :=
  readRecord expected room
    (fun room => do
      let bindings ← readElementOr [] 0 (readBindings room)
      let context ← readElement expected 1 5 readText
      let target ← readElement expected 2 5 readText
      let selection ← readElementOr none 3 (readOption (Selection.read room))
      let dependent ← readElementOr none 4 (readOption (Dependent.read room))
      return ⟨bindings, context, target, selection, dependent⟩)
    (fun room => do
      let fields ← readMembers readString (readMember room) ((← get).length + 1) true {}
      return ⟨fields.bindings.getD [], ← requireField "context" fields.context,
        ← requireField "attribute" fields.target, fields.selection.getD none,
        fields.dependent.getD none⟩)

end Rule

namespace RuleSet

def toJson (rules : RuleSet) : Json :=
  .object [("autoCompletes", .array (rules.map Rule.toJson))]

def readMember (room : Nat) (key : String) (rules : Option RuleSet) : Read (Option RuleSet) :=
  match key with
  | "autoCompletes" => readField key rules (readList room Rule.read)
  | _ => do
      skipField
      return rules

def read (room : Nat) : Read RuleSet :=
  readRecord "struct RuleSet" room
    (fun room => readElementOr [] 0 (readList room Rule.read))
    (fun room => do
      return (← readMembers readString (readMember room) ((← get).length + 1) true none).getD [])

/-- The rule set that a JSON text holds. -/
def ofJsonText (text : String) : Except Fault RuleSet := readWhole read text

/-- The JSON text of a rule set. -/
def toJsonText (rules : RuleSet) : String := (toJson rules).compact

end RuleSet

end PathCover
