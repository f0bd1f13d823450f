import PathCover.Proofs.Grammar.Derivation
import PathCover.Proofs.Tree.Reading

/-!
# Trees that show a derivation

A tree of a well-formed text is a derivation with blanks and places added.  `Shows` relates the two:
nothing is missing from the tree, nothing in it is out of place, and its tokens are those of the
derivation.
-/

namespace PathCover.Tree

open Grammar (Sign Separator LaterStep)

/-- A leaf that shows a sign has the sign's kind. -/
theorem Leaf.kind_of_sign {kind : TokenKind} {leaf : Leaf} {sign : Sign kind}
    (same : leaf.lexeme = sign.lexeme) : leaf.kind = kind :=
  (congrArg Token.Lexeme.kind same).trans sign.kind_eq

inductive NameTest.Shows : NameTest → Grammar.NameTest → Prop where
  | single {lead : List Token} {first : Leaf}
      {derived : Grammar.Terminal TokenKind.startsNameTest}
      (same : first.lexeme = derived.lexeme) : Shows ⟨lead, first, none, none⟩ ⟨derived, none⟩
  | qualified {lead : List Token} {first colon second : Leaf}
      {derivedFirst derivedSecond : Grammar.Terminal TokenKind.startsNameTest}
      {derivedColon : Sign .colon} (sameFirst : first.lexeme = derivedFirst.lexeme)
      (sameColon : colon.lexeme = derivedColon.lexeme)
      (sameSecond : second.lexeme = derivedSecond.lexeme) :
      Shows ⟨lead, first, some colon, some second⟩
        ⟨derivedFirst, some (derivedColon, derivedSecond)⟩

inductive Argument.Shows : Argument → Grammar.Argument → Prop where
  | name {test : NameTest} {derived : Grammar.NameTest} (shown : test.Shows derived) :
      Shows (.name test) (.name derived)
  | comma {leaf : Leaf} {sign : Sign .comma} (same : leaf.lexeme = sign.lexeme) :
      Shows (.mark leaf) (.comma sign)
  | question {leaf : Leaf} {sign : Sign .question} (same : leaf.lexeme = sign.lexeme) :
      Shows (.mark leaf) (.question sign)
  | literal {leaf : Leaf} {sign : Sign .stringLiteral} (same : leaf.lexeme = sign.lexeme) :
      Shows (.mark leaf) (.literal sign)
  | nested {lead : List Token} {keyword opener closer : Leaf} {arguments : List Argument}
      {derivedKeyword : Sign .name} {derivedOpener : Sign .parenOpen}
      {derivedArguments : List Grammar.Argument} {derivedCloser : Sign .parenClose}
      (sameKeyword : keyword.lexeme = derivedKeyword.lexeme)
      (sameOpener : opener.lexeme = derivedOpener.lexeme)
      (shown : List.Forall₂ Shows arguments derivedArguments)
      (sameCloser : closer.lexeme = derivedCloser.lexeme) :
      Shows (.nested lead keyword opener arguments (some closer))
        (.nested derivedKeyword derivedOpener derivedArguments derivedCloser)

def KindTest.Shows (test : KindTest) (derived : Grammar.KindTest) : Prop :=
  test.toArgument.Shows derived.argument

inductive NodeTest.Shows : NodeTest → Grammar.NodeTest → Prop where
  | name {test : NameTest} {derived : Grammar.NameTest} (shown : test.Shows derived) :
      Shows (.name test) (.name derived)
  | kind {test : KindTest} {derived : Grammar.KindTest} (shown : test.Shows derived) :
      Shows (.kind test) (.kind derived)

inductive AxisMark.Shows : AxisMark → Grammar.AxisMark → Prop where
  | short {leaf : Leaf} {sign : Sign .at} (same : leaf.lexeme = sign.lexeme) :
      Shows (.short leaf) (.short sign)
  | named {name colons : Leaf} {derivedName : Sign .name} {derivedColons : Sign .colonColon}
      (sameName : name.lexeme = derivedName.lexeme)
      (sameColons : colons.lexeme = derivedColons.lexeme) :
      Shows (.named name colons) (.named derivedName derivedColons)

inductive StepBody.Shows : StepBody → Grammar.StepBody → Prop where
  | self {leaf : Leaf} {sign : Sign .dot} (same : leaf.lexeme = sign.lexeme) :
      Shows (.abbreviated leaf) (.self sign)
  | parent {leaf : Leaf} {sign : Sign .dotDot} (same : leaf.lexeme = sign.lexeme) :
      Shows (.abbreviated leaf) (.parent sign)
  | plain {test : NodeTest} {derived : Grammar.NodeTest} (shown : test.Shows derived) :
      Shows (.tested none (some test)) (.tested none derived)
  | marked {axis : AxisMark} {derivedAxis : Grammar.AxisMark} {test : NodeTest}
      {derived : Grammar.NodeTest} (shownAxis : axis.Shows derivedAxis)
      (shown : test.Shows derived) :
      Shows (.tested (some axis) (some test)) (.tested (some derivedAxis) derived)

/-- Of predicates only their number shows: their contents have no meaning. -/
structure Step.Shows (step : Step) (derived : Grammar.Step) : Prop where
  body : step.body.Shows derived.body
  predicates : step.predicates.length = derived.predicates.length

inductive LaterShow : List PathPart → List LaterStep → Prop where
  | nil : LaterShow [] []
  | cons {leaf : Leaf} {separator : Separator} {step : Step} {derived : Grammar.Step}
      {parts : List PathPart} {later : List LaterStep}
      (same : leaf.lexeme = separator.lexeme) (shown : step.Shows derived)
      (rest : LaterShow parts later) :
      LaterShow (.separator leaf :: .step step :: parts) ((separator, derived) :: later)

inductive PartsShow : List PathPart → Grammar.Path → Prop where
  | root {leaf : Leaf} {slash : Sign .slash} (same : leaf.lexeme = slash.lexeme) :
      PartsShow [.separator leaf] (.root slash)
  | relative {step : Step} {derived : Grammar.Step} {parts : List PathPart}
      {later : List LaterStep} (shown : step.Shows derived) (rest : LaterShow parts later) :
      PartsShow (.step step :: parts) (.steps none derived later)
  | absolute {leaf : Leaf} {separator : Separator} {step : Step} {derived : Grammar.Step}
      {parts : List PathPart} {later : List LaterStep}
      (same : leaf.lexeme = separator.lexeme) (shown : step.Shows derived)
      (rest : LaterShow parts later) :
      PartsShow (.separator leaf :: .step step :: parts)
        (.steps (some separator) derived later)

end PathCover.Tree
