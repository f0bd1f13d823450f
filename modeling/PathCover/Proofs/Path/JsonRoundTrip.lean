import PathCover.Path.Json
import PathCover.Proofs.Json.ReadBack

/-!
# Paths are read back from their JSON text

Every part of a path is read back from its JSON form, given enough room for the objects that the
form opens one inside the other.  Only tests of documents nest without bound: each opens two more
objects and asks for one more level of nesting.  The room for a whole text is enough for thirty of
them.
-/

namespace PathCover

open Json

section Fields

variable {α : Type} {item : Read α} {json : Json} {value : α}

/-- A part that may be absent is read back, from null if it is absent. -/
theorem Json.reads_optional {toJson : α → Json} {given : Option α}
    (reads : ∀ part, given = some part → (toJson part).Opens ∧ Reads item (toJson part) part) :
    Reads (readOption item) (optional toJson given) given := by
  cases given with
  | none => exact reads_null item
  | some part =>
      obtain ⟨opens, reads⟩ := reads part rfl
      exact reads.given opens

/-- A record of one field is read back from an object with that field. -/
theorem KindTest.reads_single (item : Nat → Read α) {expected field : String} {absent : Option α}
    {room : Nat} (reads : Reads (item room) json value) :
    Reads (readSingle expected field absent item (room + 1)) (.object [(field, json)]) value := by
  have gathers : Gathers
      (fun key value =>
        if key = field then readField field value (item room)
        else do
          skipField
          return value)
      none [(field, json)] (some value) := by
    apply Gathers.more _ (.nothing _)
    rw [if_pos rfl]
    exact reads.field field
  exact reads_record gathers rfl rfl

end Fields

namespace NamePart

theorem opens_toJson (part : NamePart) : part.toJson.Opens := by
  cases part with
  | any => exact opens_text _
  | named name => exact opens_object _

theorem reads (part : NamePart) (room : Nat) : Reads (read (room + 1)) part.toJson part := by
  cases part with
  | any => exact reads_plain _ rfl
  | named name =>
      apply reads_tagged
      exact ((reads_text name).made (fun name => pure (named name)) rfl).data

end NamePart

namespace QName

theorem reads (name : QName) (room : Nat) : Reads (read (room + 2)) name.toJson name := by
  have qualifier : ReadsField (readMember (room + 1) "prefix" {})
      (optional NamePart.toJson name.qualifier) ⟨some name.qualifier, none⟩ := by
    rw [readMember]
    have part : Reads (readOption (NamePart.read (room + 1)))
        (optional NamePart.toJson name.qualifier) name.qualifier :=
      reads_optional fun part _ => ⟨part.opens_toJson, part.reads room⟩
    exact (part.field "prefix").made _ rfl
  have localPart : ReadsField (readMember (room + 1) "local" ⟨some name.qualifier, none⟩)
      name.localPart.toJson ⟨some name.qualifier, some name.localPart⟩ := by
    rw [readMember]
    exact ((name.localPart.reads room).field "local").made _ rfl
  exact reads_record (.more qualifier (.more localPart (.nothing _))) rfl rfl

theorem reads_option (name : Option QName) (room : Nat) :
    Reads (readOption (read (room + 2))) (optional toJson name) name :=
  reads_optional fun name _ => ⟨opens_object _, name.reads room⟩

end QName

namespace Axis

theorem reads (axis : Axis) (room : Nat) : Reads (read room) axis.toJson axis := by
  apply reads_plain
  rw [ofName?_render]

end Axis

namespace KindTest

/-- How many tests of documents a kind test nests around another one. -/
def documents : KindTest → Nat
  | .documentOf inner => inner.documents + 1
  | _ => 0

theorem opens_toJson (test : KindTest) : test.toJson.Opens := by
  cases test with
  | anyKind | text | comment => exact opens_text _
  | _ => exact opens_object _

theorem reads_typed (expected : String) (name typeName : Option QName) (room : Nat) :
    Reads (readTyped expected (room + 3)) (typedJson name typeName) (name, typeName) := by
  have isName : ReadsField (readTypedMember (room + 2) "name" {}) (optional QName.toJson name)
      ⟨some name, none⟩ := by
    rw [readTypedMember]
    exact ((QName.reads_option name room).field "name").made _ rfl
  have isType : ReadsField (readTypedMember (room + 2) "type_name" ⟨some name, none⟩)
      (optional QName.toJson typeName) ⟨some name, some typeName⟩ := by
    rw [readTypedMember]
    exact ((QName.reads_option typeName room).field "type_name").made _ rfl
  exact reads_record (.more isName (.more isType (.nothing _))) rfl rfl

theorem reads_document {nesting room : Nat} {json : Json} {inner : Option KindTest}
    (part : Reads (readOption (read nesting (room + 2))) json inner) :
    Reads (read (nesting + 1) (room + 4)) (.object [("Document", .object [("inner", json)])])
      (inner.elim .document .documentOf) := by
  rw [read]
  apply reads_tagged
  show ReadsField (caseData (readSingle "struct variant KindTest::Document" "inner" (some none)
    (fun room => readOption (read nesting room)) (room + 3) >>= _)) _ _
  apply Reads.data
  apply (reads_single (fun room => readOption (read nesting room)) part).made
  cases inner with
  | none | some _ => rfl

/-- A kind test is read back with more levels of nesting than it has tests of documents, and with
room for two objects for each of these and four for a name. -/
theorem reads {test : KindTest} {nesting room : Nat} (shallow : test.documents < nesting)
    (enough : 2 * test.documents + 4 ≤ room) : Reads (read nesting room) test.toJson test := by
  obtain ⟨nesting, rfl⟩ := Nat.exists_eq_add_one_of_ne_zero (Nat.ne_zero_of_lt shallow)
  obtain ⟨room, rfl⟩ := Nat.exists_eq_add_of_le' (Nat.le_of_add_left_le enough)
  induction test generalizing nesting room with
  | anyKind | text | comment =>
      rw [read]
      exact reads_plain _ rfl
  | element name typeName =>
      rw [read]
      apply reads_tagged
      have typed := reads_typed "struct variant KindTest::Element" name typeName room
      exact (typed.made (fun typed => pure (KindTest.element typed.1 typed.2)) rfl).data
  | «attribute» name typeName =>
      rw [read]
      apply reads_tagged
      have typed := reads_typed "struct variant KindTest::Attribute" name typeName room
      exact (typed.made (fun typed => pure (KindTest.attribute typed.1 typed.2)) rfl).data
  | schemaElement name =>
      rw [read]
      apply reads_tagged
      exact ((reads_single QName.read (name.reads room)).made
        (fun name => pure (KindTest.schemaElement name)) rfl).data
  | schemaAttribute name =>
      rw [read]
      apply reads_tagged
      exact ((reads_single QName.read (name.reads room)).made
        (fun name => pure (KindTest.schemaAttribute name)) rfl).data
  | processingInstruction target =>
      rw [read]
      apply reads_tagged
      have text : Reads (readOption readText) (optionalText target) target := by
        cases target with
        | none => exact reads_null readText
        | some target => exact (reads_text target).given (opens_text target)
      exact ((reads_single (fun _ => readOption readText) text).made
        (fun target => pure (KindTest.processingInstruction target)) rfl).data
  | document => exact reads_document (reads_null _)
  | documentOf inner ih =>
      rw [documents] at shallow enough
      obtain ⟨nesting, rfl⟩ := Nat.exists_eq_add_one_of_ne_zero (show nesting ≠ 0 by omega)
      obtain ⟨room, rfl⟩ := Nat.exists_eq_add_of_le' (show 2 ≤ room by omega)
      have part : Reads (read (nesting + 1) (room + 4)) inner.toJson inner :=
        ih nesting (by omega) room (by omega)
      exact reads_document (part.given inner.opens_toJson)

end KindTest

namespace NodeTest

/-- How many tests of documents a node test nests around another kind test. -/
def documents : NodeTest → Nat
  | .name _ => 0
  | .kind test => test.documents

theorem reads {test : NodeTest} {room : Nat} (enough : 2 * test.documents + 5 ≤ room) :
    Reads (read room) test.toJson test := by
  obtain ⟨room, rfl⟩ := Nat.exists_eq_add_of_le' (Nat.le_of_add_left_le enough)
  cases test with
  | name name =>
      apply reads_tagged
      exact ((name.reads (room + 2)).made (fun name => pure (NodeTest.name name)) rfl).data
  | kind test =>
      rw [documents] at enough
      have isRead : Reads (KindTest.read (room + 5) (room + 4)) test.toJson test :=
        KindTest.reads (by omega) (by omega)
      apply reads_tagged
      exact (isRead.made (fun test => pure (NodeTest.kind test)) rfl).data

end NodeTest

namespace AxisStep

theorem reads {step : AxisStep} {room : Nat} (enough : 2 * step.test.documents + 5 ≤ room) :
    Reads (read (room + 1)) step.toJson step := by
  have axis : ReadsField (readMember room "axis" {}) step.axis.toJson ⟨some step.axis, none⟩ := by
    rw [readMember]
    exact ((step.axis.reads room).field "axis").made _ rfl
  have test : ReadsField (readMember room "node_test" ⟨some step.axis, none⟩) step.test.toJson
      ⟨some step.axis, some step.test⟩ := by
    rw [readMember]
    exact ((NodeTest.reads enough).field "node_test").made _ rfl
  exact reads_record (.more axis (.more test (.nothing _))) rfl rfl

end AxisStep

theorem Depth.reads (depth : Depth) (room : Nat) : Reads (read room) depth.toJson depth := by
  cases depth with
  | child | descendantOrSelf => exact reads_plain _ rfl

namespace Step

/-- How many tests of documents a step nests around another kind test. -/
def documents : Step → Nat
  | .separator _ => 0
  | .axis step => step.test.documents

theorem reads {step : Step} {room : Nat} (enough : 2 * step.documents + 5 ≤ room) :
    Reads (read (room + 2)) step.toJson step := by
  cases step with
  | separator depth =>
      apply reads_tagged
      exact ((depth.reads (room + 1)).made (fun depth => pure (Step.separator depth)) rfl).data
  | axis step =>
      apply reads_tagged
      exact ((AxisStep.reads enough).made (fun step => pure (Step.axis step)) rfl).data

theorem opens_toJson (step : Step) : step.toJson.Opens := by
  cases step with
  | separator _ | axis _ => exact opens_object _

end Step

namespace Path

theorem reads {path : Path} {room : Nat} (enough : ∀ step ∈ path, 2 * step.documents + 5 ≤ room) :
    Reads (read (room + 3)) path.toJson path := by
  apply reads_list
  intro step isStep
  exact ⟨step.opens_toJson, Step.reads (enough step isStep)⟩

/-- Reading the text that was written for a path gives the same path, whatever its names and targets
are and whether or not it can be written as a path text, as long as no step nests tests of documents
more than thirty deep. -/
theorem ofJsonText_toJson {path : Path} (shallow : ∀ step ∈ path, step.documents ≤ 30) :
    ofJsonText path.toJson.compact = .ok path := by
  have enough : ∀ step ∈ path, 2 * step.documents + 5 ≤ 124 := by
    intro step isStep
    have := shallow step isStep
    omega
  exact readWhole_compact (reads enough)

theorem ofJsonText_toJson_nested :
    let name : QName := ⟨some (.named "\"\\:é"), .named "\x00😀\n"⟩
    let test : KindTest := Nat.repeat KindTest.documentOf 30 (.element none (some name))
    let path : Path :=
      [.axis ⟨.precedingSibling, .kind test⟩, .separator .child, .separator .descendantOrSelf,
        .axis ⟨.self, .name ⟨some .any, .any⟩⟩,
        .axis ⟨.attribute, .kind (.processingInstruction (some "?>]\x7d"))⟩]
    (∀ step ∈ path, step.documents ≤ 30) ∧ ofJsonText path.toJson.compact = .ok path := by
  intro name test path
  have shallow : ∀ step ∈ path, step.documents ≤ 30 := by decide
  exact ⟨shallow, ofJsonText_toJson shallow⟩

end Path

end PathCover
