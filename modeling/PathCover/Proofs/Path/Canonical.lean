import PathCover.Path.Basic
import PathCover.Proofs.Token.Spelling

/-!
# Canonical paths

The paths that texts stand for: every name is one that can be written, and nothing is stored that
the written form leaves out or implies.
-/

namespace PathCover

/-- A half of a name that can be written. -/
def NamePart.Canonical : NamePart → Prop
  | .any => True
  | .named text => Token.IsName text

/-- A name test whose halves can be written. -/
structure QName.Canonical (name : QName) : Prop where
  qualifier : ∀ part ∈ name.qualifier, part.Canonical
  localPart : name.localPart.Canonical

/-- A name that names something: as an argument, `*` alone is the same as no name. -/
structure QName.Concrete (name : QName) : Prop extends QName.Canonical name where
  notWildcard : name ≠ .wildcard

/-- The name and type of an `element` or `attribute` test.  There is a type only behind a name. -/
inductive CanonicalTyped : Option QName → Option QName → Prop where
  | nothing : CanonicalTyped none none
  | name {name : QName} (concrete : name.Concrete) : CanonicalTyped (some name) none
  | typed {name typeName : QName} (concrete : name.Concrete) (canonical : typeName.Canonical) :
      CanonicalTyped (some name) (some typeName)

inductive KindTest.Canonical : KindTest → Prop where
  | anyKind : Canonical .anyKind
  | text : Canonical .text
  | comment : Canonical .comment
  | typedElement {name typeName : Option QName} (typed : CanonicalTyped name typeName) :
      Canonical (.element name typeName)
  | typedAttribute {name typeName : Option QName} (typed : CanonicalTyped name typeName) :
      Canonical (.attribute name typeName)
  | schemaElement {name : QName} (concrete : name.Concrete) : Canonical (.schemaElement name)
  | schemaAttribute {name : QName} (concrete : name.Concrete) : Canonical (.schemaAttribute name)
  | processingInstruction {target : Option String} (named : ∀ text ∈ target, Token.IsName text) :
      Canonical (.processingInstruction target)
  | document : Canonical .document
  | documentOfElement {name typeName : Option QName} (typed : CanonicalTyped name typeName) :
      Canonical (.documentOf (.element name typeName))
  | documentOfSchemaElement {name : QName} (concrete : name.Concrete) :
      Canonical (.documentOf (.schemaElement name))

def NodeTest.Canonical : NodeTest → Prop
  | .name accepted => accepted.Canonical
  | .kind accepted => accepted.Canonical

def AxisStep.Canonical (step : AxisStep) : Prop := step.test.Canonical

namespace Path

/-- Axis steps, each possibly behind a `//`. -/
inductive CanonicalLater : Path → Prop where
  | nil : CanonicalLater []
  | step {step : AxisStep} {later : Path} (canonical : step.Canonical)
      (rest : CanonicalLater later) : CanonicalLater (.axis step :: later)
  | descendant {step : AxisStep} {later : Path} (canonical : step.Canonical)
      (rest : CanonicalLater later) :
      CanonicalLater (.separator .descendantOrSelf :: .axis step :: later)

/-- A single `/`, or an axis step, possibly behind a separator, and more axis steps, each possibly
behind a `//`. -/
inductive Canonical : Path → Prop where
  | root : Canonical [.separator .child]
  | relative {step : AxisStep} {later : Path} (canonical : step.Canonical)
      (rest : CanonicalLater later) : Canonical (.axis step :: later)
  | absolute {step : AxisStep} {later : Path} (depth : Depth) (canonical : step.Canonical)
      (rest : CanonicalLater later) : Canonical (.separator depth :: .axis step :: later)

end Path

end PathCover
