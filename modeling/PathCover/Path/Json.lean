import PathCover.Json.Read
import PathCover.Json.Value
import PathCover.Path.Basic

/-!
# Paths as JSON

Every part of a path has a JSON form, which is written and read here.  A part with alternatives is
written as the name of the alternative, or as an object with that name as its key.
-/

namespace PathCover

open Json

namespace NamePart

def toJson : NamePart → Json
  | .any => .text "Any"
  | .named name => .object [("Named", .text name)]

def caseNames : List String := ["Any", "Named"]

def read (room : Nat) : Read NamePart :=
  readCase room
    (fun name =>
      match name with
      | "Any" => return .any
      | "Named" => needsData "newtype variant"
      | _ => unknownCase name caseNames)
    (fun _ name =>
      match name with
      | "Any" => noData .any
      | "Named" => caseData do return .named (← readText)
      | _ => unknownCase name caseNames)

end NamePart

/-- The JSON form of a part that may be absent. -/
def Json.optional {α : Type} (toJson : α → Json) : Option α → Json
  | none => .null
  | some part => toJson part

namespace QName

def toJson (name : QName) : Json :=
  .object [("prefix", optional NamePart.toJson name.qualifier),
    ("local", name.localPart.toJson)]

/-- The fields of a name that were met so far. -/
structure Fields where
  qualifier : Option (Option NamePart) := none
  localPart : Option NamePart := none

def readMember (room : Nat) (key : String) (fields : Fields) : Read Fields :=
  match key with
  | "prefix" => do
      let qualifier ← readField key fields.qualifier (readOption (NamePart.read room))
      return { fields with qualifier }
  | "local" => do
      let localPart ← readField key fields.localPart (NamePart.read room)
      return { fields with localPart }
  | _ => do
      skipField
      return fields

def read (room : Nat) : Read QName :=
  readRecord "struct QName" room
    (fun room => do
      let qualifier ← readElement "struct QName" 0 2 (readOption (NamePart.read room))
      let localPart ← readElement "struct QName" 1 2 (NamePart.read room)
      return ⟨qualifier, localPart⟩)
    (fun room => do
      let fields ← readMembers readString (readMember room) ((← get).length + 1) true {}
      return ⟨fields.qualifier.getD none, ← requireField "local" fields.localPart⟩)

end QName

namespace Axis

def caseNames : List String := all.map render

def toJson (axis : Axis) : Json := .text axis.render

def read (room : Nat) : Read Axis :=
  readCase room
    (fun name =>
      match ofName? name with
      | some axis => return axis
      | none => unknownCase name caseNames)
    (fun _ name =>
      match ofName? name with
      | some axis => noData axis
      | none => unknownCase name caseNames)

end Axis

namespace KindTest

def caseNames : List String :=
  ["AnyKind", "Element", "Attribute", "SchemaElement", "SchemaAttribute", "Text", "Comment",
    "ProcessingInstruction", "Document"]

/-- The data of an `element` or `attribute` test. -/
def typedJson (name typeName : Option QName) : Json :=
  .object [("name", optional QName.toJson name), ("type_name", optional QName.toJson typeName)]

def toJson : KindTest → Json
  | .anyKind => .text "AnyKind"
  | .element name typeName => .object [("Element", typedJson name typeName)]
  | .attribute name typeName => .object [("Attribute", typedJson name typeName)]
  | .schemaElement name => .object [("SchemaElement", .object [("name", name.toJson)])]
  | .schemaAttribute name => .object [("SchemaAttribute", .object [("name", name.toJson)])]
  | .text => .text "Text"
  | .comment => .text "Comment"
  | .processingInstruction target =>
      .object [("ProcessingInstruction", .object [("target", optionalText target)])]
  | .document => .object [("Document", .object [("inner", .null)])]
  | .documentOf inner => .object [("Document", .object [("inner", inner.toJson)])]

/-- The fields of an `element` or `attribute` test that were met so far. -/
structure TypedFields where
  name : Option (Option QName) := none
  typeName : Option (Option QName) := none

def readTypedMember (room : Nat) (key : String) (fields : TypedFields) : Read TypedFields :=
  match key with
  | "name" => do
      let name ← readField key fields.name (readOption (QName.read room))
      return { fields with name }
  | "type_name" => do
      let typeName ← readField key fields.typeName (readOption (QName.read room))
      return { fields with typeName }
  | _ => do
      skipField
      return fields

/-- The name and the type of an `element` or `attribute` test. -/
def readTyped (expected : String) (room : Nat) : Read (Option QName × Option QName) :=
  readRecord expected room
    (fun room => do
      let name ← readElement expected 0 2 (readOption (QName.read room))
      let typeName ← readElement expected 1 2 (readOption (QName.read room))
      return (name, typeName))
    (fun room => do
      let fields ← readMembers readString (readTypedMember room) ((← get).length + 1) true {}
      return (fields.name.getD none, fields.typeName.getD none))

/-- A record with a single field. -/
def readSingle {α : Type} (expected field : String) (absent : Option α) (item : Nat → Read α)
    (room : Nat) : Read α :=
  readRecord expected room
    (fun room => readElement expected 0 1 (item room))
    (fun room => do
      let value ← readMembers readString
        (fun key value =>
          if key = field then readField field value (item room)
          else do
            skipField
            return value)
        ((← get).length + 1) true none
      requireField field (value <|> absent))

/-- A kind test, which holds kind tests at most `nesting` deep. -/
def read : (nesting room : Nat) → Read KindTest
  | 0, _ => fault .malformed
  | nesting + 1, room =>
      readCase room
        (fun name =>
          match name with
          | "AnyKind" => return .anyKind
          | "Text" => return .text
          | "Comment" => return .comment
          | _ =>
              if caseNames.contains name then needsData "struct variant"
              else unknownCase name caseNames)
        (fun room name =>
          match name with
          | "AnyKind" => noData .anyKind
          | "Text" => noData .text
          | "Comment" => noData .comment
          | "Element" => caseData do
              let (name, typeName) ← readTyped "struct variant KindTest::Element" room
              return .element name typeName
          | "Attribute" => caseData do
              let (name, typeName) ← readTyped "struct variant KindTest::Attribute" room
              return .attribute name typeName
          | "SchemaElement" => caseData do
              return .schemaElement (← readSingle "struct variant KindTest::SchemaElement" "name"
                none QName.read room)
          | "SchemaAttribute" => caseData do
              return .schemaAttribute (← readSingle "struct variant KindTest::SchemaAttribute"
                "name" none QName.read room)
          | "ProcessingInstruction" => caseData do
              return .processingInstruction
                (← readSingle "struct variant KindTest::ProcessingInstruction" "target"
                  (some none) (fun _ => readOption readText) room)
          | "Document" => caseData do
              match ← readSingle "struct variant KindTest::Document" "inner" (some none)
                (fun room => readOption (read nesting room)) room with
              | none => return .document
              | some inner => return .documentOf inner
          | _ => unknownCase name caseNames)

end KindTest

namespace NodeTest

def toJson : NodeTest → Json
  | .name accepted => .object [("Name", accepted.toJson)]
  | .kind accepted => .object [("Kind", accepted.toJson)]

def caseNames : List String := ["Name", "Kind"]

def read (room : Nat) : Read NodeTest :=
  readCase room
    (fun key =>
      if caseNames.contains key then needsData "newtype variant"
      else unknownCase key caseNames)
    (fun room key =>
      match key with
      | "Name" => caseData do return .name (← QName.read room)
      | "Kind" => caseData do return .kind (← KindTest.read (room + 1) room)
      | _ => unknownCase key caseNames)

end NodeTest

namespace AxisStep

def toJson (step : AxisStep) : Json :=
  .object [("axis", step.axis.toJson), ("node_test", step.test.toJson)]

/-- The fields of an axis step that were met so far. -/
structure Fields where
  axis : Option Axis := none
  test : Option NodeTest := none

def readMember (room : Nat) (key : String) (fields : Fields) : Read Fields :=
  match key with
  | "axis" => do
      let axis ← readField key fields.axis (Axis.read room)
      return { fields with axis }
  | "node_test" => do
      let test ← readField key fields.test (NodeTest.read room)
      return { fields with test }
  | _ => do
      skipField
      return fields

def read (room : Nat) : Read AxisStep :=
  readRecord "struct AxisStep" room
    (fun room => do
      let axis ← readElement "struct AxisStep" 0 2 (Axis.read room)
      let test ← readElement "struct AxisStep" 1 2 (NodeTest.read room)
      return ⟨axis, test⟩)
    (fun room => do
      let fields ← readMembers readString (readMember room) ((← get).length + 1) true {}
      return ⟨← requireField "axis" fields.axis, ← requireField "node_test" fields.test⟩)

end AxisStep

namespace Depth

def toJson : Depth → Json
  | .child => .text "Child"
  | .descendantOrSelf => .text "DescendantOrSelf"

def caseNames : List String := ["Child", "DescendantOrSelf"]

/-- The depth of a given name. -/
def ofName? : String → Option Depth
  | "Child" => some .child
  | "DescendantOrSelf" => some .descendantOrSelf
  | _ => none

def read (room : Nat) : Read Depth :=
  readCase room
    (fun name =>
      match ofName? name with
      | some depth => return depth
      | none => unknownCase name caseNames)
    (fun _ name =>
      match ofName? name with
      | some depth => noData depth
      | none => unknownCase name caseNames)

end Depth

namespace Step

def toJson : Step → Json
  | .separator depth => .object [("Separator", depth.toJson)]
  | .axis step => .object [("Axis", step.toJson)]

def caseNames : List String := ["Separator", "Axis"]

def read (room : Nat) : Read Step :=
  readCase room
    (fun name =>
      if caseNames.contains name then needsData "newtype variant"
      else unknownCase name caseNames)
    (fun room name =>
      match name with
      | "Separator" => caseData do return .separator (← Depth.read room)
      | "Axis" => caseData do return .axis (← AxisStep.read room)
      | _ => unknownCase name caseNames)

end Step

namespace Path

def toJson (path : Path) : Json := .array (path.map Step.toJson)

def read (room : Nat) : Read Path := readList room Step.read

/-- The path that a JSON text holds. -/
def ofJsonText (text : String) : Except Fault Path := readWhole read text

end Path

end PathCover
