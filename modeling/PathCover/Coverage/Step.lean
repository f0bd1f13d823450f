import PathCover.Path.Basic

/-!
# Coverage of steps

When every node that one step selects is selected by another.  The relation is conservative: it
holds only where the form of the two steps shows it.
-/

namespace PathCover

/-- Coverage of names.  A wildcard local part covers the names of its own qualifier, or all names
when its qualifier is a wildcard too or was not written. -/
def QName.coveredBy (name cover : QName) : Bool :=
  name = cover ||
    (cover.localPart = .any &&
      (cover.qualifier = none || cover.qualifier = some .any ||
        name.qualifierText = cover.qualifierText))

/-- Coverage of the names of two tests, either of which may leave the name out.  A test without a
name covers every name; only such a test covers one without a name. -/
def QName.optionCoveredBy : Option QName → Option QName → Bool
  | _, none => true
  | none, some _ => false
  | some name, some cover => name.coveredBy cover

/-- Coverage of axes: a sibling axis lies inside the axis without that restriction. -/
def Axis.coveredBy (axis cover : Axis) : Bool :=
  axis = cover ||
    match axis, cover with
    | .followingSibling, .following => true
    | .precedingSibling, .preceding => true
    | _, _ => false

/-- Whether a kind test accepts every node of a name that is reached along an axis.  The kind tests
of attributes do so on the attribute axis alone. -/
def KindTest.coversName (cover : KindTest) (name : QName) (axis : Axis) : Bool :=
  match cover with
  | .attribute coverName _ => axis = .attribute && QName.optionCoveredBy (some name) coverName
  | .schemaAttribute coverName => axis = .attribute && name.coveredBy coverName
  | .element coverName _ => QName.optionCoveredBy (some name) coverName
  | .schemaElement coverName => name.coveredBy coverName
  | _ => false

/-- Coverage of node tests, where `axis` is the one along which the first is reached. -/
def NodeTest.coveredBy (test : NodeTest) (axis : Axis) (cover : NodeTest) : Bool :=
  test = cover ||
    match test, cover with
    | _, .kind .anyKind => true
    | .name own, .name coverName => own.coveredBy coverName
    | .name own, .kind coverKind => coverKind.coversName own axis
    | .kind _, _ => false

/-- Coverage of steps: of the axes and of the node tests. -/
def AxisStep.coveredBy (step cover : AxisStep) : Bool :=
  step.axis.coveredBy cover.axis && step.test.coveredBy step.axis cover.test

end PathCover
