import PathCover.Diagnostic.Basic
import PathCover.Path.Basic
import PathCover.Text.Blank
import PathCover.Tree.Element

/-!
# From tree to path

The path that a syntax tree stands for.  A separator in front of the path is kept, and so is every
`//`; other separators are implied by the steps.  Predicates are left out, each with a warning.  A
step that means nothing is left out too, and then some error was reported, either with the tree or
here.
-/

namespace PathCover.Tree

/-- Why a part of a tree means nothing. -/
inductive Refusal where
  /-- Something is missing, which the tree's own report says. -/
  | incomplete
  | because (diagnostic : Diagnostic)
  deriving DecidableEq, Inhabited

/-- What a refusal adds to a report. -/
def Refusal.report : Refusal → Report
  | .incomplete => []
  | .because diagnostic => [diagnostic]

/-- Half of a name from its token. -/
def namePart (token : Token) : NamePart :=
  match token.kind with
  | .star => .any
  | _ => .named token.text

/-- The name of a name test, unless the name after its colon is missing. -/
def NameTest.qname? (test : NameTest) : Option QName :=
  test.localPart.map fun localPart => ⟨test.qualifier.map namePart, namePart localPart⟩

/-- The name of a name test, or a refusal. -/
def NameTest.qname (test : NameTest) : Except Refusal QName :=
  match test.qname? with
  | some name => .ok name
  | none => .error .incomplete

/-- As an argument, `*` means the same as no name at all. -/
def unlessWildcard (name : QName) : Option QName :=
  if name = .wildcard then none else some name

/-- Reads a quote that is written twice as one. -/
def collapse (quote : Char) : List Char → List Char
  | [] => []
  | [last] => [last]
  | first :: second :: rest =>
      if first = quote ∧ second = quote then quote :: collapse quote rest
      else first :: collapse quote (second :: rest)

/-- The text that a string literal stands for. -/
def unquote (literal : String) : String :=
  match literal.toList with
  | [] => ""
  | quote :: rest => String.ofList (collapse quote rest.dropLast)

/-- What an argument of a kind test contributes. -/
inductive ArgumentMeaning where
  | name (name : Except Refusal QName)
  | kind (test : Except Refusal PathCover.KindTest)
  | literal (text : String)
  | comma
  | question

/-- A refusal of the arguments of a kind test that covers `span`. -/
def invalidArguments {α : Type} (span : Text.Span) (detail : String) : Except Refusal α :=
  .error (.because (.plain .invalidKindTestArgument span (some detail)))

/-- A kind test without arguments. -/
def withoutArguments (keyword : Token) (span : Text.Span) (test : PathCover.KindTest) :
    List ArgumentMeaning → Except Refusal PathCover.KindTest
  | [] => .ok test
  | _ => invalidArguments span ("`" ++ keyword.text ++ "()` takes no arguments")

/-- The name and the type of an `element` or `attribute` test. -/
def nameAndType (keyword : Token) (span : Text.Span) :
    List ArgumentMeaning → Except Refusal (Option QName × Option QName)
  | [] => .ok (none, none)
  | [.name name] => do return (unlessWildcard (← name), none)
  | [.name name, .comma, .name typeName] | [.name name, .comma, .name typeName, .question] => do
      return (unlessWildcard (← name), some (← typeName))
  | _ =>
      invalidArguments span
        ("expected `" ++ keyword.text ++ "()`, `" ++ keyword.text ++ "(name)` or `" ++
          keyword.text ++ "(name, type)`")

/-- The name of a declared element or attribute. -/
def declaredName (keyword : Token) (span : Text.Span) (arguments : List ArgumentMeaning) :
    Except Refusal QName :=
  let missing : Except Refusal QName :=
    invalidArguments span ("`" ++ keyword.text ++ "` requires a declared name")
  match arguments with
  | [.name name] => do
      match unlessWildcard (← name) with
      | some name => return name
      | none => missing
  | _ => missing

/-- The target of a processing instruction. -/
def instructionTarget (span : Text.Span) :
    List ArgumentMeaning → Except Refusal (Option String)
  | [] => .ok none
  | [.name name] => do
      match ← name with
      | ⟨none, .named target⟩ => return some target
      | _ => invalidArguments span "target must be an NCName"
  | [.literal text] => .ok (some text)
  | _ => invalidArguments span "expected a single target name or string"

/-- A document test, whose argument can only be a test for elements. -/
def documentTest (span : Text.Span) : List ArgumentMeaning → Except Refusal PathCover.KindTest
  | [] => .ok .document
  | [.kind test] => do
      match ← test with
      | .element name typeName => return .documentOf (.element name typeName)
      | .schemaElement name => return .documentOf (.schemaElement name)
      | _ =>
          invalidArguments span "only `element(...)` or `schema-element(...)` may appear here"
  | _ => invalidArguments span "expected `document-node()` or `document-node(element(...))`"

/-- The kind test of a keyword and its arguments, which together cover `span`. -/
def kindTestOf (keyword : Token) (span : Text.Span) (arguments : List ArgumentMeaning) :
    Except Refusal PathCover.KindTest :=
  match keyword.text with
  | "node" => withoutArguments keyword span .anyKind arguments
  | "text" => withoutArguments keyword span .text arguments
  | "comment" => withoutArguments keyword span .comment arguments
  | "element" => do
      let (name, typeName) ← nameAndType keyword span arguments
      return .element name typeName
  | "attribute" => do
      let (name, typeName) ← nameAndType keyword span arguments
      return .attribute name typeName
  | "schema-element" => return .schemaElement (← declaredName keyword span arguments)
  | "schema-attribute" => return .schemaAttribute (← declaredName keyword span arguments)
  | "processing-instruction" =>
      return .processingInstruction (← instructionTarget span arguments)
  | "document-node" => documentTest span arguments
  | _ =>
      .error (.because (.plain .unknownKindTest keyword.span (some keyword.text)))

mutual

/-- What an argument contributes; a token that fits nowhere contributes nothing. -/
def Argument.meaning : Argument → List ArgumentMeaning
  | .name test => [.name test.qname]
  | .mark leaf =>
      match leaf.kind with
      | .stringLiteral => [.literal (unquote leaf.token.text)]
      | .comma => [.comma]
      | .question => [.question]
      | _ => []
  | .stray .. => []
  | .nested lead keyword opener arguments closer =>
      [.kind (kindTestOf keyword.token
        (KindTest.element ⟨lead, keyword, opener, arguments, closer⟩).span
        (Argument.meaningOf arguments))]

/-- What the arguments of a kind test contribute, in order. -/
def Argument.meaningOf : List Argument → List ArgumentMeaning
  | [] => []
  | argument :: rest => argument.meaning ++ meaningOf rest

end

/-- The kind test that a tree stands for. -/
def KindTest.meaning (test : KindTest) : Except Refusal PathCover.KindTest :=
  kindTestOf test.keyword.token test.element.span (Argument.meaningOf test.arguments)

/-- The node test that a tree stands for. -/
def NodeTest.meaning : NodeTest → Except Refusal PathCover.NodeTest
  | .name test => do return .name (← test.qname)
  | .kind test => do return .kind (← test.meaning)

/-- The axis that a name stands for.  The namespace axis exists but is not supported. -/
def axisOf (name : Token) : Except Refusal Axis :=
  match Axis.ofName? name.text with
  | some axis => .ok axis
  | none =>
      let kind := if name.text = "namespace" then .unsupportedAxis else .unknownAxis
      .error (.because (.plain kind name.span (some name.text)))

/-- The axis of a step that names none. -/
def impliedAxis : PathCover.NodeTest → Axis
  | .kind kind => if kind.selectsAttributes then .attribute else .child
  | .name _ => .child

/-- The axis step that a step without its predicates stands for. -/
def StepBody.meaning : StepBody → Except Refusal AxisStep
  | .abbreviated leaf =>
      .ok ⟨if leaf.kind = .dotDot then .parent else .self, .kind .anyKind⟩
  | .tested (some (.named name _)) none => do
      let _ ← axisOf name.token
      .error .incomplete
  | .tested _ none => .error .incomplete
  | .tested none (some test) => do
      let test ← test.meaning
      return ⟨impliedAxis test, test⟩
  | .tested (some (.short _)) (some test) => do return ⟨.attribute, ← test.meaning⟩
  | .tested (some (.named name _)) (some test) => do
      let axis ← axisOf name.token
      return ⟨axis, ← test.meaning⟩

/-- The text between the brackets of a predicate, without the blanks around it. -/
def Predicate.content (predicate : Predicate) : String :=
  let inner := predicate.element.text.toList.tail
  String.ofList (Text.trim (if inner.getLast? = some ']' then inner.dropLast else inner))

/-- The warning that a predicate is left out. -/
def Predicate.ignored (predicate : Predicate) : Diagnostic :=
  .plain .predicateIgnored predicate.element.span (some ("`[" ++ predicate.content ++ "]`"))

/-- What there is to report about a step: its predicates, then why it means nothing. -/
def Step.report (step : Step) : Report :=
  step.predicates.map Predicate.ignored ++
    match step.body.meaning with
    | .ok _ => []
    | .error refusal => refusal.report

/-- How far a separator descends. -/
def depthOf (separator : Leaf) : Depth :=
  if separator.kind = .doubleSlash then .descendantOrSelf else .child

/-- The steps of a path that a part stands for when it is not the first part. -/
def PathPart.later : PathPart → PathCover.Path
  | .separator leaf =>
      match depthOf leaf with
      | .child => []
      | .descendantOrSelf => [.separator .descendantOrSelf]
  | .step part => (part.body.meaning.toOption.map .axis).toList

/-- The steps of a path that the first part stands for. -/
def PathPart.leading : PathPart → PathCover.Path
  | .separator leaf => [.separator (depthOf leaf)]
  | .step part => PathPart.later (.step part)

/-- What there is to report about a part of a path. -/
def PathPart.report : PathPart → Report
  | .separator _ => []
  | .step part => part.report

/-- The path that the parts of a text stand for. -/
def meaningOfParts : List PathPart → PathCover.Path
  | [] => []
  | first :: rest => first.leading ++ rest.flatMap PathPart.later

/-- The parts of the path of a text, none if there is no path. -/
def Root.parts (root : Root) : List PathPart :=
  match root.path with
  | none => []
  | some path => path.parts

/-- The path that a text stands for. -/
def Root.meaning (root : Root) : PathCover.Path := meaningOfParts root.parts

/-- What there is to report about the meaning of a text. -/
def Root.report (root : Root) : Report := root.parts.flatMap PathPart.report

end PathCover.Tree
