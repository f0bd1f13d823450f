import PathCover.Path.Name

/-!
# Node tests

A node test accepts nodes by name or by kind.
-/

namespace PathCover

/-- A test of a node's kind, possibly of its name too. -/
inductive KindTest where
  /-- `node()` -/
  | anyKind
  /-- `element()`, `element(name)` or `element(name, type)` -/
  | element (name typeName : Option QName)
  /-- `attribute()`, `attribute(name)` or `attribute(name, type)` -/
  | attribute (name typeName : Option QName)
  /-- `schema-element(name)` -/
  | schemaElement (name : QName)
  /-- `schema-attribute(name)` -/
  | schemaAttribute (name : QName)
  /-- `text()` -/
  | text
  /-- `comment()` -/
  | comment
  /-- `processing-instruction()` or `processing-instruction(target)` -/
  | processingInstruction (target : Option String)
  /-- `document-node()` -/
  | document
  /-- `document-node(inner)` -/
  | documentOf (inner : KindTest)
  deriving DecidableEq, Inhabited

namespace KindTest

/-- Whether a step with this test and no written axis moves to attributes. -/
def selectsAttributes : KindTest → Bool
  | .attribute .. | .schemaAttribute _ => true
  | _ => false

/-- The argument list of `element` and `attribute`.  A type is written only after a name. -/
def renderTyped : Option QName → Option QName → String
  | none, _ => ""
  | some name, none => name.render
  | some name, some typeName => name.render ++ ", " ++ typeName.render

/-- The written form of a kind test.  A target is written bare, whatever characters it holds. -/
def render : KindTest → String
  | .anyKind => "node()"
  | .element name typeName => "element(" ++ renderTyped name typeName ++ ")"
  | .attribute name typeName => "attribute(" ++ renderTyped name typeName ++ ")"
  | .schemaElement name => "schema-element(" ++ name.render ++ ")"
  | .schemaAttribute name => "schema-attribute(" ++ name.render ++ ")"
  | .text => "text()"
  | .comment => "comment()"
  | .processingInstruction none => "processing-instruction()"
  | .processingInstruction (some target) => "processing-instruction(" ++ target ++ ")"
  | .document => "document-node()"
  | .documentOf inner => "document-node(" ++ inner.render ++ ")"

end KindTest

/-- What a step accepts among the nodes that its axis reaches. -/
inductive NodeTest where
  | name (accepted : QName)
  | kind (accepted : KindTest)
  deriving DecidableEq, Inhabited

/-- The written form of a node test. -/
def NodeTest.render : NodeTest → String
  | .name accepted => accepted.render
  | .kind accepted => accepted.render

end PathCover
