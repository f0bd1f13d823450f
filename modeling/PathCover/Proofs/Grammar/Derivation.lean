import Mathlib.Data.List.Forall2
import PathCover.Proofs.Token.Significant
import PathCover.Tree.Meaning

/-!
# The grammar of paths as a language

Derivations of the grammar

    Path      = ('/' | '//')? Step (('/' | '//') Step)*  |  '/'
    Step      = ('.' | '..' | ('@' | Name '::')? NodeTest) Predicate*
    NodeTest  = KindTest | NameTest
    NameTest  = (Name | '*') (':' (Name | '*'))?
    KindTest  = Name '(' (KindTest | NameTest | ',' | '?' | String)* ')'
    Predicate = '[' any tokens, the brackets among them balanced ']'

One type for each rule; a value is a derivation and its `lexemes` are what it derives.  The types
say nothing about readers or trees: a derivation has no blanks, no places and nothing missing.

Not everything that the grammar derives has a meaning.  `Denotes` relates the derivations that have
one to it: an axis has to be one of the twelve, and the keyword of a kind test has to take the
arguments that it is given.
-/

namespace PathCover.Grammar

open Token (Lexeme)

/-- A token of one of the kinds that a place of the grammar admits. -/
structure Terminal (admitted : TokenKind → Bool) where
  lexeme : Lexeme
  admits : admitted lexeme.kind = true

/-- A token of one particular kind. -/
abbrev Sign (kind : TokenKind) := Terminal (fun other => decide (other = kind))

namespace Terminal

variable {admitted : TokenKind → Bool}

def kind (terminal : Terminal admitted) : TokenKind := terminal.lexeme.kind

def text (terminal : Terminal admitted) : List Char := terminal.lexeme.text

end Terminal

theorem Sign.kind_eq {kind : TokenKind} (sign : Sign kind) : sign.lexeme.kind = kind := by
  simpa using sign.admits

/-! ## Derivations -/

/-- A name test: a name or `*`, and possibly a colon and another one. -/
structure NameTest where
  first : Terminal TokenKind.startsNameTest
  second : Option (Sign .colon × Terminal TokenKind.startsNameTest)

def NameTest.lexemes (test : NameTest) : List Lexeme :=
  match test.second with
  | none => [test.first.lexeme]
  | some (colon, second) => [test.first.lexeme, colon.lexeme, second.lexeme]

/-- What stands between the parentheses of a kind test. -/
inductive Argument where
  | name (test : NameTest)
  | comma (sign : Sign .comma)
  | question (sign : Sign .question)
  | literal (sign : Sign .stringLiteral)
  | nested (keyword : Sign .name) (opener : Sign .parenOpen) (arguments : List Argument)
      (closer : Sign .parenClose)

mutual

def Argument.lexemes : Argument → List Lexeme
  | .name test => test.lexemes
  | .comma sign => [sign.lexeme]
  | .question sign => [sign.lexeme]
  | .literal sign => [sign.lexeme]
  | .nested keyword opener arguments closer =>
      keyword.lexeme :: opener.lexeme :: (Argument.lexemesOf arguments ++ [closer.lexeme])

def Argument.lexemesOf : List Argument → List Lexeme
  | [] => []
  | argument :: rest => argument.lexemes ++ lexemesOf rest

end

/-- A kind test: a keyword, and its arguments between parentheses. -/
structure KindTest where
  keyword : Sign .name
  opener : Sign .parenOpen
  arguments : List Argument
  closer : Sign .parenClose

namespace KindTest

/-- A kind test as an argument of another. -/
def argument (test : KindTest) : Argument :=
  .nested test.keyword test.opener test.arguments test.closer

def lexemes (test : KindTest) : List Lexeme := test.argument.lexemes

/-- Whether a kind test has a given keyword. -/
def Has (test : KindTest) (keyword : String) : Prop := test.keyword.text = keyword.toList

end KindTest

/-- What stands between the brackets of a predicate: any tokens but brackets, and predicates. -/
inductive PredicateItem where
  | plain (terminal : Terminal (fun kind => kind ≠ .bracketOpen ∧ kind ≠ .bracketClose))
  | nested (opener : Sign .bracketOpen) (items : List PredicateItem)
      (closer : Sign .bracketClose)

mutual

def PredicateItem.lexemes : PredicateItem → List Lexeme
  | .plain terminal => [terminal.lexeme]
  | .nested opener items closer =>
      opener.lexeme :: (PredicateItem.lexemesOf items ++ [closer.lexeme])

def PredicateItem.lexemesOf : List PredicateItem → List Lexeme
  | [] => []
  | item :: rest => item.lexemes ++ lexemesOf rest

end

structure Predicate where
  opener : Sign .bracketOpen
  items : List PredicateItem
  closer : Sign .bracketClose

def Predicate.lexemes (predicate : Predicate) : List Lexeme :=
  (PredicateItem.nested predicate.opener predicate.items predicate.closer).lexemes

inductive NodeTest where
  | name (test : NameTest)
  | kind (test : KindTest)

def NodeTest.lexemes : NodeTest → List Lexeme
  | .name test => test.lexemes
  | .kind test => test.lexemes

/-- What stands in front of a node test to choose the axis. -/
inductive AxisMark where
  | short (sign : Sign .at)
  | named (name : Sign .name) (colons : Sign .colonColon)

def AxisMark.lexemes : AxisMark → List Lexeme
  | .short sign => [sign.lexeme]
  | .named name colons => [name.lexeme, colons.lexeme]

inductive StepBody where
  | self (sign : Sign .dot)
  | parent (sign : Sign .dotDot)
  | tested (axis : Option AxisMark) (test : NodeTest)

def StepBody.lexemes : StepBody → List Lexeme
  | .self sign => [sign.lexeme]
  | .parent sign => [sign.lexeme]
  | .tested none test => test.lexemes
  | .tested (some axis) test => axis.lexemes ++ test.lexemes

structure Step where
  body : StepBody
  predicates : List Predicate

def Step.lexemes (step : Step) : List Lexeme :=
  step.body.lexemes ++ step.predicates.flatMap Predicate.lexemes

/-- `/` or `//`. -/
abbrev Separator := Terminal TokenKind.isSeparator

/-- A separator and the step after it. -/
abbrev LaterStep := Separator × Step

def LaterStep.lexemes (later : LaterStep) : List Lexeme := later.1.lexeme :: later.2.lexemes

inductive Path where
  | root (slash : Sign .slash)
  | steps (leading : Option Separator) (first : Step) (later : List LaterStep)

def Path.lexemes : Path → List Lexeme
  | .root slash => [slash.lexeme]
  | .steps leading first later =>
      (leading.map Terminal.lexeme).toList ++ first.lexemes ++
        later.flatMap LaterStep.lexemes

/-! ## Meanings -/

/-- Half of a name from its token. -/
def Terminal.namePart {admitted : TokenKind → Bool} (terminal : Terminal admitted) : NamePart :=
  if terminal.kind = .star then .any else .named (String.ofList terminal.text)

def NameTest.qname (test : NameTest) : QName :=
  match test.second with
  | none => ⟨none, test.first.namePart⟩
  | some (_, second) => ⟨some test.first.namePart, second.namePart⟩

/-- The arguments that `element` and `attribute` take, and the name and type that they say. -/
inductive NameAndType : List Argument → Option QName → Option QName → Prop where
  | nothing : NameAndType [] none none
  | name (name : NameTest) : NameAndType [.name name] (Tree.unlessWildcard name.qname) none
  | typed (name typeName : NameTest) (comma : Sign .comma) :
      NameAndType [.name name, .comma comma, .name typeName]
        (Tree.unlessWildcard name.qname) (some typeName.qname)
  | nillable (name typeName : NameTest) (comma : Sign .comma) (question : Sign .question) :
      NameAndType [.name name, .comma comma, .name typeName, .question question]
        (Tree.unlessWildcard name.qname) (some typeName.qname)

/-- The arguments that `schema-element` and `schema-attribute` take: one name other than `*`. -/
inductive DeclaredName : List Argument → QName → Prop where
  | name (name : NameTest) (concrete : name.qname ≠ .wildcard) :
      DeclaredName [.name name] name.qname

/-- The arguments that `processing-instruction` takes: none, one unqualified concrete name, or one
string. -/
inductive Target : List Argument → Option String → Prop where
  | nothing : Target [] none
  | name (name : NameTest) (target : String) (concrete : name.qname = ⟨none, .named target⟩) :
      Target [.name name] (some target)
  | literal (sign : Sign .stringLiteral) :
      Target [.literal sign] (some (Tree.unquote (String.ofList sign.text)))

/-- Whether a kind test may stand inside a document test. -/
def isElementTest : PathCover.KindTest → Bool
  | .element .. | .schemaElement _ => true
  | _ => false

/-- The keyword of a test takes its arguments, and together they stand for a kind test. -/
inductive KindTest.Denotes : KindTest → PathCover.KindTest → Prop where
  | anyKind {test : KindTest} (keyword : test.Has "node") (nothing : test.arguments = []) :
      Denotes test .anyKind
  | text {test : KindTest} (keyword : test.Has "text") (nothing : test.arguments = []) :
      Denotes test .text
  | comment {test : KindTest} (keyword : test.Has "comment") (nothing : test.arguments = []) :
      Denotes test .comment
  | element {test : KindTest} {name typeName : Option QName} (keyword : test.Has "element")
      (given : NameAndType test.arguments name typeName) :
      Denotes test (.element name typeName)
  | attribute {test : KindTest} {name typeName : Option QName}
      (keyword : test.Has "attribute") (given : NameAndType test.arguments name typeName) :
      Denotes test (.attribute name typeName)
  | schemaElement {test : KindTest} {name : QName} (keyword : test.Has "schema-element")
      (given : DeclaredName test.arguments name) : Denotes test (.schemaElement name)
  | schemaAttribute {test : KindTest} {name : QName} (keyword : test.Has "schema-attribute")
      (given : DeclaredName test.arguments name) : Denotes test (.schemaAttribute name)
  | processingInstruction {test : KindTest} {target : Option String}
      (keyword : test.Has "processing-instruction") (given : Target test.arguments target) :
      Denotes test (.processingInstruction target)
  | document {test : KindTest} (keyword : test.Has "document-node")
      (nothing : test.arguments = []) : Denotes test .document
  | documentOf {test inner : KindTest} {kind : PathCover.KindTest}
      (keyword : test.Has "document-node") (only : test.arguments = [inner.argument])
      (meaning : Denotes inner kind) (elements : isElementTest kind = true) :
      Denotes test (.documentOf kind)

/-- The keyword of a kind test takes the arguments that it is given. -/
def KindTest.Accepted (test : KindTest) : Prop := ∃ kind, test.Denotes kind

inductive NodeTest.Denotes : NodeTest → PathCover.NodeTest → Prop where
  | name (test : NameTest) : Denotes (.name test) (.name test.qname)
  | kind {test : KindTest} {kind : PathCover.KindTest} (meaning : test.Denotes kind) :
      Denotes (.kind test) (.kind kind)

inductive StepBody.Denotes : StepBody → AxisStep → Prop where
  | self (sign : Sign .dot) : Denotes (.self sign) ⟨.self, .kind .anyKind⟩
  | parent (sign : Sign .dotDot) : Denotes (.parent sign) ⟨.parent, .kind .anyKind⟩
  | implied {test : NodeTest} {accepted : PathCover.NodeTest} (meaning : test.Denotes accepted) :
      Denotes (.tested none test) ⟨Tree.impliedAxis accepted, accepted⟩
  | short {test : NodeTest} {accepted : PathCover.NodeTest} (sign : Sign .at)
      (meaning : test.Denotes accepted) :
      Denotes (.tested (some (.short sign)) test) ⟨.attribute, accepted⟩
  | named {test : NodeTest} {accepted : PathCover.NodeTest} {axis : Axis} (name : Sign .name)
      (colons : Sign .colonColon) (known : name.text = axis.render.toList)
      (meaning : test.Denotes accepted) :
      Denotes (.tested (some (.named name colons)) test) ⟨axis, accepted⟩

/-- Predicates add nothing to what a step stands for. -/
def Step.Denotes (step : Step) (meaning : AxisStep) : Prop := step.body.Denotes meaning

/-- How far a separator descends. -/
def Separator.depth (separator : Separator) : Depth :=
  if separator.kind = .doubleSlash then .descendantOrSelf else .child

/-- What a separator between two steps adds to a path: `//` is kept and `/` is implied. -/
def Separator.interior (separator : Separator) : PathCover.Path :=
  match separator.depth with
  | .child => []
  | .descendantOrSelf => [.separator .descendantOrSelf]

inductive LaterDenote : List LaterStep → PathCover.Path → Prop where
  | nil : LaterDenote [] []
  | cons {step : Step} {meaning : AxisStep} {later : List LaterStep} {path : PathCover.Path}
      (separator : Separator) (first : step.Denotes meaning) (rest : LaterDenote later path) :
      LaterDenote ((separator, step) :: later) (separator.interior ++ .axis meaning :: path)

inductive Path.Denotes : Path → PathCover.Path → Prop where
  | root (slash : Sign .slash) : Denotes (.root slash) [.separator .child]
  | steps {step : Step} {meaning : AxisStep} {later : List LaterStep} {path : PathCover.Path}
      (leading : Option Separator) (first : step.Denotes meaning)
      (rest : LaterDenote later path) :
      Denotes (.steps leading step later)
        ((leading.map fun separator => .separator separator.depth).toList ++
          .axis meaning :: path)

/-! ## The steps of a path -/

/-- Each axis step behind the first one is denoted by a step of the derivation. -/
theorem LaterDenote.exists_step {later : List LaterStep} {path : PathCover.Path}
    (denotes : LaterDenote later path) {meaning : AxisStep} (member : .axis meaning ∈ path) :
    ∃ step : Step, step.Denotes meaning ∧ step.lexemes ⊆ later.flatMap LaterStep.lexemes := by
  induction denotes with
  | nil => cases member
  | @cons step _ later _ separator first _ ih =>
      rw [List.mem_append, List.mem_cons] at member
      rcases member with idle | same | member
      · rw [Separator.interior] at idle
        split at idle <;> simp at idle
      · cases same
        refine ⟨step, first, fun lexeme inStep => ?_⟩
        exact List.mem_append_left _ (List.mem_cons_of_mem _ inStep)
      · obtain ⟨step, denotes, inLater⟩ := ih member
        exact ⟨step, denotes, fun lexeme inStep => List.mem_append_right _ (inLater inStep)⟩

/-- Each axis step of a path is denoted by a step of the derivation. -/
theorem Path.Denotes.exists_step {derived : Path} {path : PathCover.Path}
    (denotes : derived.Denotes path) {meaning : AxisStep} (member : .axis meaning ∈ path) :
    ∃ step : Step, step.Denotes meaning ∧ step.lexemes ⊆ derived.lexemes := by
  cases denotes with
  | root => simp at member
  | @steps step _ later _ leading first rest =>
      rw [List.mem_append, List.mem_cons] at member
      rcases member with idle | same | member
      · cases leading <;> simp at idle
      · cases same
        refine ⟨step, first, fun lexeme inStep => ?_⟩
        exact List.mem_append_left _ (List.mem_append_right _ inStep)
      · obtain ⟨step, denotes, inLater⟩ := rest.exists_step member
        exact ⟨step, denotes, fun lexeme inStep => List.mem_append_right _ (inLater inStep)⟩

/-! ## Acceptance -/

/-- The axis name that a step writes out. -/
def Step.axisName? (step : Step) : Option (Sign .name) :=
  match step.body with
  | .tested (some (.named name _)) _ => some name
  | _ => none

/-- The kind test of a step. -/
def Step.kindTest? (step : Step) : Option KindTest :=
  match step.body with
  | .tested _ (.kind test) => some test
  | _ => none

def Path.allSteps : Path → List Step
  | .root _ => []
  | .steps _ first later => first :: later.map Prod.snd

/-- The predicates of a path in order. -/
def Path.predicates : Path → List Predicate
  | .root _ => []
  | .steps _ first later => first.predicates ++ later.flatMap (·.2.predicates)

/-- Every axis that a path writes out is one of the twelve, and every kind test of a step takes its
arguments. -/
structure Path.Accepted (path : Path) : Prop where
  axes : ∀ step ∈ path.allSteps, ∀ name ∈ step.axisName?,
    ∃ axis : Axis, name.text = axis.render.toList
  kinds : ∀ step ∈ path.allSteps, ∀ test ∈ step.kindTest?, test.Accepted

end PathCover.Grammar
