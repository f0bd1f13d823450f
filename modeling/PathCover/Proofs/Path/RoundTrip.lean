import PathCover.Proofs.Grammar.Accepts
import PathCover.Proofs.Path.Canonical

/-!
# Written paths are read back

The written form of a canonical path spells the lexemes of a derivation that denotes the path.
Since the grammar is read exactly, parsing the written form gives the path back and reports nothing.
-/

namespace PathCover

open Token (Lexeme Spells EndsName)
open Grammar (LaterStep LaterDenote)

/-! ## Pieces that a step may start with -/

/-- The characters that the written form of a step starts with. -/
def OpensStep (c : Char) : Prop := Token.isNameStart c = true ∨ c = '*' ∨ c = '@' ∨ c = '.'

/-- A text that may start a step and spells lexemes. -/
structure Writes (text : List Char) (parts : List Lexeme) (accepted : Char → Prop) : Prop where
  spells : Spells text parts accepted
  opens : ∃ c ∈ text.head?, OpensStep c

theorem OpensStep.ne {c : Char} (opens : OpensStep c) (other : Char) (isSign : other ∈ Token.signs)
    (unlike : other ≠ '*' ∧ other ≠ '@' ∧ other ≠ '.') : c ≠ other := by
  rintro rfl
  rcases opens with starts | same | same | same
  · rw [Token.isNameStart_of_mem_signs c isSign] at starts
    cases starts
  · exact unlike.1 same
  · exact unlike.2.1 same
  · exact unlike.2.2 same

theorem OpensStep.isSpace_eq {c : Char} (opens : OpensStep c) : Token.isSpace c = false := by
  simp [Token.isSpace, opens.ne ' ' (by decide) (by decide),
    opens.ne '\t' (by decide) (by decide),
    opens.ne '\r' (by decide) (by decide),
    opens.ne '\n' (by decide) (by decide)]

namespace Writes

variable {text text' : List Char} {parts parts' : List Lexeme} {accepted accepted' : Char → Prop}

theorem append (first : Writes text parts accepted) (second : Spells text' parts' accepted')
    (joins : ∃ c ∈ text'.head?, accepted c) :
    Writes (text ++ text') (parts ++ parts') accepted' := by
  refine ⟨first.spells.append second joins, ?_⟩
  obtain ⟨c, isHead, opens⟩ := first.opens
  exact ⟨c, List.mem_head?_append_of_mem_head? isHead, opens⟩

theorem mono (writes : Writes text parts accepted) (less : ∀ c, accepted' c → accepted c) :
    Writes text parts accepted' :=
  ⟨writes.spells.mono less, writes.opens⟩

/-- What may start a step stands in front of everything that accepts such characters. -/
theorem joins (writes : Writes text parts accepted) (less : ∀ c, OpensStep c → accepted' c) :
    ∃ c ∈ text.head?, accepted' c := by
  obtain ⟨c, isHead, opens⟩ := writes.opens
  exact ⟨c, isHead, less c opens⟩

end Writes

theorem writes_name {name : List Char} (isName : Token.isNameText name = true) :
    Writes name [⟨.name, name⟩] EndsName := by
  refine ⟨Token.spells_name isName, ?_⟩
  cases name with
  | nil => cases isName
  | cons first rest => exact ⟨first, rfl, .inl (Bool.and_eq_true_iff.mp isName).1⟩

/-! ## Names -/

theorem NamePart.Canonical.written {part : NamePart} (canonical : part.Canonical) :
    ∃ terminal : Grammar.Terminal TokenKind.startsNameTest,
      terminal.namePart = part ∧ Writes part.render.toList [terminal.lexeme] EndsName := by
  cases part with
  | any =>
      refine ⟨⟨⟨.star, ['*']⟩, rfl⟩, rfl, ?_, '*', rfl, .inr (.inl rfl)⟩
      have star : Spells ['*'] [⟨.star, ['*']⟩] (fun _ => True) :=
        Token.spells_char (fun _ => rfl) (by decide) rfl
      exact star.mono fun _ _ => trivial
  | named text =>
      refine ⟨⟨⟨.name, text.toList⟩, rfl⟩, ?_, writes_name canonical.isNameText⟩
      exact congrArg NamePart.named String.ofList_toList

theorem QName.Canonical.written {name : QName} (canonical : name.Canonical) :
    ∃ derived : Grammar.NameTest,
      derived.qname = name ∧ Writes name.render.toList derived.lexemes EndsName := by
  obtain ⟨localPart, isLocal, writesLocal⟩ := canonical.localPart.written
  obtain ⟨_ | qualifier, part⟩ := name
  · refine ⟨⟨localPart, none⟩, ?_, writesLocal⟩
    rw [Grammar.NameTest.qname, isLocal]
  · obtain ⟨first, isQualifier, writesQualifier⟩ := (canonical.qualifier qualifier rfl).written
    refine ⟨⟨first, some (⟨⟨.colon, [':']⟩, rfl⟩, localPart)⟩, ?_, ?_⟩
    · simp only [Grammar.NameTest.qname, isQualifier, isLocal]
    · have withColon := writesQualifier.append Token.spells_colon
        ⟨':', rfl, Token.endsName_sign ':' (by decide)⟩
      have whole := withColon.append writesLocal.spells
        (writesLocal.joins fun c opens => opens.ne ':' (by decide) (by decide))
      rw [QName.render, String.toList_append, String.toList_append]
      exact whole

/-! ## Kind tests -/

theorem unlessWildcard_eq {name : QName} (notWildcard : name ≠ .wildcard) :
    Tree.unlessWildcard name = some name := if_neg notWildcard

/-- The arguments of an `element` or `attribute` test. -/
theorem CanonicalTyped.written {name typeName : Option QName}
    (typed : CanonicalTyped name typeName) :
    ∃ arguments : List Grammar.Argument, Grammar.NameAndType arguments name typeName ∧
      Spells (KindTest.renderTyped name typeName).toList (Grammar.Argument.lexemesOf arguments)
        EndsName := by
  cases typed with
  | nothing => exact ⟨[], .nothing, fun _ _ => rfl⟩
  | name concrete =>
      obtain ⟨derived, rfl, writes⟩ := concrete.toCanonical.written
      refine ⟨[.name derived], ?_, ?_⟩
      · have given := Grammar.NameAndType.name derived
        rwa [unlessWildcard_eq concrete.notWildcard] at given
      · rw [Grammar.Argument.lexemesOf, Grammar.Argument.lexemesOf, List.append_nil]
        exact writes.spells
  | typed concrete canonical =>
      obtain ⟨derived, rfl, writes⟩ := concrete.toCanonical.written
      obtain ⟨derivedType, rfl, writesType⟩ := canonical.written
      refine ⟨[.name derived, .comma ⟨⟨.comma, [',']⟩, rfl⟩, .name derivedType], ?_, ?_⟩
      · have given := Grammar.NameAndType.typed derived derivedType ⟨⟨.comma, [',']⟩, rfl⟩
        rwa [unlessWildcard_eq concrete.notWildcard] at given
      · have comma : Spells [','] [⟨.comma, [',']⟩] (fun _ => True) :=
          Token.spells_char (fun _ => rfl) (by decide) rfl
        have separator := comma.append Token.spells_blank ⟨' ', rfl, trivial⟩
        have front := writes.append separator
          ⟨',', rfl, Token.endsName_sign ',' (by decide)⟩
        have whole := front.append writesType.spells
          (writesType.joins fun c opens => opens.isSpace_eq)
        rw [KindTest.renderTyped, String.toList_append, String.toList_append]
        simpa [Grammar.Argument.lexemesOf, Grammar.Argument.lexemes] using whole.spells

/-- The keywords of kind tests -/
def keywords : List String :=
  ["node", "text", "comment", "element", "attribute", "schema-element", "schema-attribute",
    "processing-instruction", "document-node"]

theorem isNameText_keyword {keyword : String} (isKeyword : keyword ∈ keywords) :
    Token.isNameText keyword.toList = true := by
  have names : keywords.all (fun keyword => Token.isNameText keyword.toList) = true := by
    decide +kernel
  exact List.all_eq_true.mp names keyword isKeyword

/-- A keyword and its arguments between parentheses, where the arguments are spelled in front of the
closing one. -/
theorem kindTest_written (keyword : String) {opening inner : String}
    (opens : opening.toList = keyword.toList ++ ['('])
    (isKeyword : keyword ∈ keywords) {arguments : List Grammar.Argument}
    (spells : Spells inner.toList (Grammar.Argument.lexemesOf arguments) (· = ')')) :
    ∃ derived : Grammar.KindTest, derived.Has keyword ∧ derived.arguments = arguments ∧
      Writes (opening ++ inner ++ ")").toList derived.lexemes (fun _ => True) := by
  have closer : Spells [')'] [⟨.parenClose, [')']⟩] (fun _ => True) :=
    Token.spells_char (fun _ => rfl) (by decide) rfl
  have opener : Spells ['('] [⟨.parenOpen, ['(']⟩] (fun _ => True) :=
    Token.spells_char (fun _ => rfl) (by decide) rfl
  have inside := spells.append closer ⟨')', rfl, rfl⟩
  have group := opener.append inside (by cases inner.toList <;> exact ⟨_, rfl, trivial⟩)
  have whole := (writes_name (isNameText_keyword isKeyword)).append group
    ⟨'(', rfl, Token.endsName_sign '(' (by decide)⟩
  refine ⟨⟨⟨⟨.name, keyword.toList⟩, rfl⟩, ⟨⟨.parenOpen, ['(']⟩, rfl⟩, arguments,
    ⟨⟨.parenClose, [')']⟩, rfl⟩⟩, rfl, rfl, ?_⟩
  rw [String.toList_append, String.toList_append, opens, List.append_assoc, List.append_assoc]
  exact whole

/-- The closing parenthesis of a kind test ends a name. -/
theorem endsName_parenClose (c : Char) (isClose : c = ')') : EndsName c := by
  rw [isClose]
  exact Token.endsName_sign ')' (by decide)

/-- A kind test without arguments. -/
theorem emptyKindTest_written (keyword : String) {text : String}
    (same : text = keyword ++ "(" ++ "" ++ ")")
    (isKeyword : keyword ∈ keywords) :
    ∃ derived : Grammar.KindTest, derived.Has keyword ∧ derived.arguments = [] ∧
      Writes text.toList derived.lexemes (fun _ => True) := by
  rw [same]
  exact kindTest_written keyword String.toList_append isKeyword (fun _ _ => rfl)

/-- The one argument of a kind test that takes a name. -/
theorem QName.Concrete.written {name : QName} (concrete : name.Concrete) :
    ∃ arguments : List Grammar.Argument, Grammar.DeclaredName arguments name ∧
      Spells name.render.toList (Grammar.Argument.lexemesOf arguments) EndsName := by
  obtain ⟨derived, rfl, writes⟩ := concrete.toCanonical.written
  refine ⟨[.name derived], .name derived concrete.notWildcard, ?_⟩
  rw [Grammar.Argument.lexemesOf, Grammar.Argument.lexemesOf, List.append_nil]
  exact writes.spells

/-- A kind test is denoted by a derivation that its written form spells. -/
def KindTest.Written (kind : KindTest) : Prop :=
  ∃ derived : Grammar.KindTest,
    derived.Denotes kind ∧ Writes kind.render.toList derived.lexemes (fun _ => True)

theorem element_written {name typeName : Option QName} (typed : CanonicalTyped name typeName) :
    (KindTest.element name typeName).Written := by
  obtain ⟨arguments, given, spells⟩ := typed.written
  obtain ⟨derived, keyword, rfl, writes⟩ :=
    kindTest_written "element" (show "element(".toList = _ by decide) (by decide)
      (spells.mono endsName_parenClose)
  exact ⟨derived, .element keyword given, writes⟩

theorem schemaElement_written {name : QName} (concrete : name.Concrete) :
    (KindTest.schemaElement name).Written := by
  obtain ⟨arguments, given, spells⟩ := concrete.written
  obtain ⟨derived, keyword, rfl, writes⟩ := kindTest_written "schema-element"
    (show "schema-element(".toList = _ by decide) (by decide)
    (spells.mono endsName_parenClose)
  exact ⟨derived, .schemaElement keyword given, writes⟩

theorem documentOf_written {inner : KindTest} (written : inner.Written)
    (elements : Grammar.isElementTest inner = true) : (KindTest.documentOf inner).Written := by
  obtain ⟨derivedInner, meaning, writesInner⟩ := written
  have spells : Spells inner.render.toList
      (Grammar.Argument.lexemesOf [derivedInner.argument]) (· = ')') := by
    rw [Grammar.Argument.lexemesOf, Grammar.Argument.lexemesOf, List.append_nil]
    exact writesInner.spells.mono fun _ _ => trivial
  obtain ⟨derived, keyword, given, writes⟩ := kindTest_written "document-node"
    (show "document-node(".toList = _ by decide) (by decide) spells
  exact ⟨derived, .documentOf keyword given meaning elements, writes⟩

theorem KindTest.Canonical.written {kind : KindTest} (canonical : kind.Canonical) :
    kind.Written := by
  cases canonical with
  | anyKind =>
      obtain ⟨derived, keyword, given, writes⟩ :=
        emptyKindTest_written "node" (show "node()" = _ by decide) (by decide)
      exact ⟨derived, .anyKind keyword given, writes⟩
  | text =>
      obtain ⟨derived, keyword, given, writes⟩ :=
        emptyKindTest_written "text" (show "text()" = _ by decide) (by decide)
      exact ⟨derived, .text keyword given, writes⟩
  | comment =>
      obtain ⟨derived, keyword, given, writes⟩ :=
        emptyKindTest_written "comment" (show "comment()" = _ by decide) (by decide)
      exact ⟨derived, .comment keyword given, writes⟩
  | typedElement typed => exact element_written typed
  | typedAttribute typed =>
      obtain ⟨arguments, given, spells⟩ := typed.written
      obtain ⟨derived, keyword, rfl, writes⟩ := kindTest_written "attribute"
        (show "attribute(".toList = _ by decide) (by decide)
        (spells.mono endsName_parenClose)
      exact ⟨derived, .attribute keyword given, writes⟩
  | schemaElement concrete => exact schemaElement_written concrete
  | schemaAttribute concrete =>
      obtain ⟨arguments, given, spells⟩ := concrete.written
      obtain ⟨derived, keyword, rfl, writes⟩ := kindTest_written "schema-attribute"
        (show "schema-attribute(".toList = _ by decide) (by decide)
        (spells.mono endsName_parenClose)
      exact ⟨derived, .schemaAttribute keyword given, writes⟩
  | @processingInstruction target named =>
      cases target with
      | none =>
          obtain ⟨derived, keyword, given, writes⟩ := emptyKindTest_written
            "processing-instruction" (show "processing-instruction()" = _ by decide)
            (by decide)
          refine ⟨derived, .processingInstruction keyword ?_, writes⟩
          rw [given]
          exact .nothing
      | some target =>
          have shape := (named target rfl).isNameText
          have spells : Spells target.toList (Grammar.Argument.lexemesOf
              [.name ⟨⟨⟨.name, target.toList⟩, rfl⟩, none⟩]) EndsName := Token.spells_name shape
          obtain ⟨derived, keyword, given, writes⟩ := kindTest_written "processing-instruction"
            (show "processing-instruction(".toList = _ by decide) (by decide)
            (spells.mono endsName_parenClose)
          refine ⟨derived, .processingInstruction keyword ?_, writes⟩
          rw [given]
          refine .name _ target ?_
          exact congrArg (QName.mk none ∘ NamePart.named) String.ofList_toList
  | document =>
      obtain ⟨derived, keyword, given, writes⟩ := emptyKindTest_written "document-node"
        (show "document-node()" = _ by decide) (by decide)
      exact ⟨derived, .document keyword given, writes⟩
  | documentOfElement typed => exact documentOf_written (element_written typed) rfl
  | documentOfSchemaElement concrete =>
      exact documentOf_written (schemaElement_written concrete) rfl

/-! ## Steps -/

theorem NodeTest.Canonical.written {test : NodeTest} (canonical : test.Canonical) :
    ∃ derived : Grammar.NodeTest,
      derived.Denotes test ∧ Writes test.render.toList derived.lexemes EndsName := by
  cases test with
  | name accepted =>
      obtain ⟨derived, rfl, writes⟩ := QName.Canonical.written canonical
      exact ⟨.name derived, .name derived, writes⟩
  | kind accepted =>
      obtain ⟨derived, meaning, writes⟩ := KindTest.Canonical.written canonical
      exact ⟨.kind derived, .kind meaning, writes.mono fun _ _ => trivial⟩

/-- A step is denoted by a derivation that the given text spells. -/
def AxisStep.WrittenAs (step : AxisStep) (text : String) : Prop :=
  ∃ derived : Grammar.StepBody,
    derived.Denotes step ∧ Writes text.toList derived.lexemes (· = '/')

theorem endsName_slash (c : Char) (isSlash : c = '/') : EndsName c := by
  rw [isSlash]
  exact Token.endsName_sign '/' (by decide)

theorem isNameText_axis (axis : Axis) : Token.isNameText axis.render.toList = true := by
  have names : Axis.all.all (fun axis => Token.isNameText axis.render.toList) = true := by
    decide +kernel
  exact List.all_eq_true.mp names axis axis.mem_all

section Steps

variable {test : NodeTest} (canonical : test.Canonical)

include canonical

theorem named_written (axis : Axis) :
    AxisStep.WrittenAs ⟨axis, test⟩ (axis.render ++ "::" ++ test.render) := by
  obtain ⟨derived, meaning, writes⟩ := canonical.written
  let mark : Grammar.AxisMark :=
    .named ⟨⟨.name, axis.render.toList⟩, rfl⟩ ⟨⟨.colonColon, [':', ':']⟩, rfl⟩
  refine ⟨.tested (some mark) derived, .named _ _ rfl meaning, ?_⟩
  have colons : Spells [':', ':'] [⟨.colonColon, [':', ':']⟩] (fun _ => True) :=
    Token.spells_pair (fun _ => rfl) (by decide) rfl
  have front := (writes_name (isNameText_axis axis)).append colons
    ⟨':', rfl, Token.endsName_sign ':' (by decide)⟩
  have whole := front.append writes.spells (writes.joins fun _ _ => trivial)
  rw [String.toList_append, String.toList_append]
  exact whole.mono endsName_slash

theorem short_written : AxisStep.WrittenAs ⟨.attribute, test⟩ ("@" ++ test.render) := by
  obtain ⟨derived, meaning, writes⟩ := canonical.written
  refine ⟨.tested (some (.short ⟨⟨.at, ['@']⟩, rfl⟩)) derived, .short _ meaning, ?_⟩
  have sign : Spells ['@'] [⟨.at, ['@']⟩] (fun _ => True) :=
    Token.spells_char (fun _ => rfl) (by decide) rfl
  have whole := sign.append writes.spells (writes.joins fun _ _ => trivial)
  rw [String.toList_append]
  exact ⟨whole.mono endsName_slash, '@', rfl, .inr (.inr (.inl rfl))⟩

theorem implied_written : AxisStep.WrittenAs ⟨Tree.impliedAxis test, test⟩ test.render := by
  obtain ⟨derived, meaning, writes⟩ := canonical.written
  exact ⟨.tested none derived, .implied meaning, writes.mono endsName_slash⟩

end Steps

theorem self_written : AxisStep.WrittenAs ⟨.self, .kind .anyKind⟩ "." :=
  ⟨.self ⟨⟨.dot, ['.']⟩, rfl⟩, .self _, Token.spells_dot, '.', rfl, .inr (.inr (.inr rfl))⟩

theorem parent_written : AxisStep.WrittenAs ⟨.parent, .kind .anyKind⟩ ".." := by
  have sign : Spells ['.', '.'] [⟨.dotDot, ['.', '.']⟩] (fun _ => True) :=
    Token.spells_pair (fun _ => rfl) (by decide) rfl
  exact ⟨.parent ⟨⟨.dotDot, ['.', '.']⟩, rfl⟩, .parent _, sign.mono fun _ _ => trivial, '.', rfl,
    .inr (.inr (.inr rfl))⟩

/-- The abbreviation that a step is written with stands for its axis. -/
theorem AxisStep.Canonical.written {step : AxisStep} (canonical : step.Canonical) :
    step.WrittenAs step.render := by
  obtain ⟨axis, test⟩ := step
  simp only [AxisStep.render]
  split
  · exact parent_written
  · exact self_written
  · exact short_written canonical
  · rename_i kind
    split
    · exact named_written canonical .child
    · rename_i notAttributes
      have implied := implied_written canonical
      rw [Tree.impliedAxis, if_neg notAttributes] at implied
      exact implied
  · exact implied_written canonical
  · exact named_written canonical axis

/-! ## Paths -/

/-- A separator in front of a step. -/
theorem Depth.written (depth : Depth) : ∃ separator : Grammar.Separator,
    separator.depth = depth ∧ ∀ {text : List Char} {parts : List Lexeme},
      Writes text parts (· = '/') →
        Spells (depth.render.toList ++ text) (separator.lexeme :: parts) (· = '/') := by
  cases depth with
  | child =>
      refine ⟨⟨⟨.slash, ['/']⟩, rfl⟩, rfl, fun writes => ?_⟩
      exact Token.spells_slash.append writes.spells
        (writes.joins fun _ opens => opens.ne '/' (by decide) (by decide))
  | descendantOrSelf =>
      have sign : Spells ['/', '/'] [⟨.doubleSlash, ['/', '/']⟩] (fun _ => True) :=
        Token.spells_pair (fun _ => rfl) (by decide) rfl
      refine ⟨⟨⟨.doubleSlash, ['/', '/']⟩, rfl⟩, rfl, fun writes => ?_⟩
      exact sign.append writes.spells (writes.joins fun _ _ => trivial)

/-- A step, a separator and what is behind it. -/
theorem Writes.separated {text text' : List Char} {parts parts' : List Lexeme} {depth : Depth}
    (first : Writes text parts (· = '/'))
    (second : Spells (depth.render.toList ++ text') parts' (· = '/')) :
    Writes (text ++ (depth.render.toList ++ text')) (parts ++ parts') (· = '/') :=
  first.append second (by cases depth <;> exact ⟨'/', rfl, rfl⟩)

/-- A step and what is behind it are denoted by a step without predicates and later ones, which
their written form spells. -/
theorem later_written {later : Path} (canonicalLater : later.CanonicalLater) {first : AxisStep}
    (canonical : first.Canonical) :
    ∃ (body : Grammar.StepBody) (others : List LaterStep), body.Denotes first ∧
      LaterDenote others later ∧ others.flatMap (·.2.predicates) = [] ∧
        Writes (Path.render (.axis first :: later)).toList
          (body.lexemes ++ others.flatMap LaterStep.lexemes) (· = '/') := by
  induction canonicalLater generalizing first with
  | nil =>
      obtain ⟨body, denotes, writes⟩ := canonical.written
      refine ⟨body, [], denotes, .nil, rfl, ?_⟩
      rw [List.flatMap_nil, List.append_nil]
      exact writes
  | @step second later canonicalSecond _ ih =>
      obtain ⟨body, denotes, writes⟩ := canonical.written
      obtain ⟨next, others, denotesNext, denoteOthers, noPredicates, writesNext⟩ :=
        ih canonicalSecond
      obtain ⟨slash, isChild, separated⟩ := Depth.child.written
      refine ⟨body, (slash, ⟨next, []⟩) :: others, denotes, ?_, noPredicates, ?_⟩
      · have denote := LaterDenote.cons slash
          (show Grammar.Step.Denotes ⟨next, []⟩ second from denotesNext) denoteOthers
        rwa [Grammar.Separator.interior, isChild] at denote
      · have whole := writes.separated (separated writesNext)
        have rendered : Path.render (.axis first :: .axis second :: later) =
            first.render ++ Depth.child.render ++ Path.render (.axis second :: later) := rfl
        rw [rendered, String.toList_append, String.toList_append, List.append_assoc]
        simpa [LaterStep.lexemes, Grammar.Step.lexemes] using whole
  | @descendant second later canonicalSecond _ ih =>
      obtain ⟨body, denotes, writes⟩ := canonical.written
      obtain ⟨next, others, denotesNext, denoteOthers, noPredicates, writesNext⟩ :=
        ih canonicalSecond
      obtain ⟨slashes, isDescendant, separated⟩ := Depth.descendantOrSelf.written
      refine ⟨body, (slashes, ⟨next, []⟩) :: others, denotes, ?_, noPredicates, ?_⟩
      · have denote := LaterDenote.cons slashes
          (show Grammar.Step.Denotes ⟨next, []⟩ second from denotesNext) denoteOthers
        rwa [Grammar.Separator.interior, isDescendant] at denote
      · have whole := writes.separated (separated writesNext)
        have rendered : Path.render (.axis first :: .separator .descendantOrSelf ::
            .axis second :: later) = first.render ++
              (Depth.descendantOrSelf.render ++ Path.render (.axis second :: later)) := rfl
        rw [rendered, String.toList_append, String.toList_append]
        simpa [LaterStep.lexemes, Grammar.Step.lexemes] using whole

namespace Path

/-- What a whole text spells are its lexemes. -/
theorem significant_of_spells {text : String} {parts : List Lexeme} {accepted : Char → Prop}
    (spells : Spells text.toList parts accepted) : parts = Token.significant text := by
  have whole := spells [] (by rintro _ ⟨⟩)
  have nothing : Token.withoutBlanks [] = [] := by
    simp [Token.withoutBlanks, Token.lexemes, Token.joinGarbage]
  rw [List.append_nil, nothing, List.append_nil] at whole
  rw [Token.significant_eq, whole]

theorem Canonical.written {path : Path} (canonical : path.Canonical) :
    ∃ derived : Grammar.Path, derived.Denotes path ∧ derived.predicates = [] ∧
      derived.lexemes = Token.significant path.render := by
  cases canonical with
  | root =>
      exact ⟨.root ⟨⟨.slash, ['/']⟩, rfl⟩, .root _, rfl, significant_of_spells Token.spells_slash⟩
  | relative canonical rest =>
      obtain ⟨body, others, denotes, denoteOthers, noPredicates, writes⟩ :=
        later_written rest canonical
      refine ⟨.steps none ⟨body, []⟩ others, .steps none denotes denoteOthers, noPredicates, ?_⟩
      rw [← significant_of_spells writes.spells]
      simp [Grammar.Path.lexemes, Grammar.Step.lexemes]
  | @absolute step later depth canonical rest =>
      obtain ⟨body, others, denotes, denoteOthers, noPredicates, writes⟩ :=
        later_written rest canonical
      have rendered : Path.render (.separator depth :: .axis step :: later) =
          depth.render ++ Path.render (.axis step :: later) := rfl
      obtain ⟨separator, isDepth, separated⟩ := depth.written
      have spells := separated writes
      rw [← String.toList_append, ← rendered] at spells
      refine ⟨.steps (some separator) ⟨body, []⟩ others, ?_, noPredicates, ?_⟩
      · have denotesPath := Grammar.Path.Denotes.steps (some separator)
          (show Grammar.Step.Denotes ⟨body, []⟩ step from denotes) denoteOthers
        rwa [Option.map_some, isDepth] at denotesPath
      · rw [← significant_of_spells spells]
        simp [Grammar.Path.lexemes, Grammar.Step.lexemes]

/-- A canonical path is read back from its written form, and nothing is reported. -/
theorem parse_render (path : Path) (canonical : path.Canonical) :
    ∃ parsed, ParsedPath.parse .none path.render = .ok parsed ∧ parsed.report = [] ∧
      parsed.path = path := by
  obtain ⟨derived, denotes, noPredicates, derives⟩ := canonical.written
  obtain ⟨parsed, isParsed, isPath, ignored, sameLength, report⟩ :=
    ParsedPath.parse_of_denotes derives denotes
  rw [noPredicates, List.length_nil, List.length_eq_zero_iff] at sameLength
  exact ⟨parsed, isParsed, by rw [report, sameLength]; rfl, isPath⟩

/-- `//tei:*/..//child::attribute(id)` -/
theorem parse_render_abbreviations :
    let path : Path := [.separator .descendantOrSelf,
      .axis ⟨.child, .name ⟨some (.named "tei"), .any⟩⟩, .axis ⟨.parent, .kind .anyKind⟩,
      .separator .descendantOrSelf,
      .axis ⟨.child, .kind (.attribute (some ⟨none, .named "id"⟩) none)⟩]
    path.render = "//tei:*/..//child::attribute(id)" ∧ path.Canonical ∧
      ∃ parsed, ParsedPath.parse .none path.render = .ok parsed ∧ parsed.report = [] ∧
        parsed.path = path := by
  intro path
  have canonical : path.Canonical := by
    refine .absolute _ ⟨?_, trivial⟩
      (.step .anyKind (.descendant (.typedAttribute (.name ?_)) .nil))
    · rintro _ ⟨rfl⟩
      exact (by decide +kernel : Token.IsName "tei")
    · exact ⟨⟨by rintro _ ⟨⟩, (by decide +kernel : Token.IsName "id")⟩, by decide⟩
  exact ⟨by decide, canonical, parse_render path canonical⟩

end Path

end PathCover
