import PathCover.Proofs.Grammar.Shows

/-!
# What a tree that shows a derivation means

The meaning of a tree is computed from the tree; the meaning of a derivation is a relation.  Where
the tree shows the derivation the two agree: the computation gives the meaning if there is one, and
otherwise a refusal that reports an error.
-/

namespace PathCover.Tree

open Grammar (Sign Separator LaterStep NameAndType DeclaredName Target)

/-- An outcome decides a property: it is the one value that has the property, or no value has it and
the outcome is a refusal that reports an error. -/
inductive Decides {α : Type} (property : α → Prop) : Except Refusal α → Prop where
  | value {value : α} (holds : property value) (only : ∀ other, property other → other = value) :
      Decides property (.ok value)
  | refused {diagnostic : Diagnostic} (error : diagnostic.isError = true)
      (nothing : ∀ value, ¬property value) : Decides property (.error (.because diagnostic))

namespace Decides

variable {α β : Type} {property : α → Prop} {outcome : Except Refusal α}

theorem eq_ok (decides : Decides property outcome) {value : α} (holds : property value) :
    outcome = .ok value := by
  cases decides with
  | value _ only => rw [only value holds]
  | refused _ nothing => exact absurd holds (nothing value)

theorem congr {other : α → Prop} (decides : Decides property outcome)
    (same : ∀ value, property value ↔ other value) : Decides other outcome := by
  have equal : property = other := funext fun value => propext (same value)
  rwa [← equal]

/-- What is made of a decided outcome decides which values are made of the ones it is about. -/
theorem map {image : α → β} {other : β → Prop} (decides : Decides property outcome)
    (same : ∀ result, other result ↔ ∃ value, property value ∧ result = image value) :
    Decides other (outcome >>= fun value => pure (image value)) := by
  cases decides with
  | @value value holds only =>
      refine .value ((same _).mpr ⟨value, holds, rfl⟩) ?_
      intro result given
      obtain ⟨value', holds', rfl⟩ := (same result).mp given
      rw [only value' holds']
  | refused error nothing =>
      refine .refused error ?_
      intro result given
      obtain ⟨value, holds, _⟩ := (same result).mp given
      exact nothing value holds

end Decides

/-! ## Names -/

theorem namePart_eq {admitted : TokenKind → Bool} {leaf : Leaf}
    {terminal : Grammar.Terminal admitted} (same : leaf.lexeme = terminal.lexeme) :
    namePart leaf.token = terminal.namePart := by
  have kind : leaf.token.kind = terminal.kind := congrArg Token.Lexeme.kind same
  have text : leaf.token.text.toList = terminal.text := congrArg Token.Lexeme.text same
  rw [Grammar.Terminal.namePart, ← kind, ← text, String.ofList_toList, namePart]
  split
  · rename_i star
    rw [if_pos star]
  · rename_i other
    rw [if_neg other]

theorem NameTest.Shows.qname_eq {test : NameTest} {derived : Grammar.NameTest}
    (shown : test.Shows derived) : test.qname = .ok derived.qname := by
  cases shown with
  | single same =>
      simp [NameTest.qname, NameTest.qname?, NameTest.localPart, NameTest.qualifier,
        Grammar.NameTest.qname, namePart_eq same]
  | qualified sameFirst _ sameSecond =>
      simp [NameTest.qname, NameTest.qname?, NameTest.localPart, NameTest.qualifier,
        Grammar.NameTest.qname, namePart_eq sameFirst, namePart_eq sameSecond]

/-! ## Arguments -/

/-- What an argument contributes is what its derivation says. -/
inductive ArgumentMeaning.Says : ArgumentMeaning → Grammar.Argument → Prop where
  | name (test : Grammar.NameTest) : Says (.name (.ok test.qname)) (.name test)
  | comma (sign : Sign .comma) : Says .comma (.comma sign)
  | question (sign : Sign .question) : Says .question (.question sign)
  | literal (sign : Sign .stringLiteral) :
      Says (.literal (unquote (String.ofList sign.text))) (.literal sign)
  | kind {keyword : Sign .name} {opener : Sign .parenOpen} {inner : List Grammar.Argument}
      {closer : Sign .parenClose} {outcome : Except Refusal PathCover.KindTest}
      (decides : Decides (Grammar.KindTest.Denotes ⟨keyword, opener, inner, closer⟩) outcome) :
      Says (.kind outcome) (.nested keyword opener inner closer)

variable {keyword : Token} {span : Text.Span} {meanings : List ArgumentMeaning}
variable {arguments : List Grammar.Argument}

theorem invalidArguments_decides {α : Type} {property : α → Prop} (detail : String)
    (nothing : ∀ value, ¬property value) : Decides property (invalidArguments span detail) :=
  .refused rfl nothing

theorem withoutArguments_decides {test : PathCover.KindTest}
    (said : List.Forall₂ ArgumentMeaning.Says meanings arguments) :
    Decides (fun other => arguments = [] ∧ other = test)
      (withoutArguments keyword span test meanings) := by
  unfold withoutArguments
  split
  · cases said
    exact .value ⟨rfl, rfl⟩ fun _ given => given.2
  · rename_i notNothing
    apply invalidArguments_decides
    rintro _ ⟨rfl, _⟩
    cases said
    exact notNothing rfl

theorem nameAndType_decides (said : List.Forall₂ ArgumentMeaning.Says meanings arguments) :
    Decides (fun pair => NameAndType arguments pair.1 pair.2)
      (nameAndType keyword span meanings) := by
  unfold nameAndType
  split
  · cases said
    exact .value .nothing (by rintro ⟨_, _⟩ ⟨⟩; rfl)
  · obtain _ | ⟨⟨_⟩, _ | _⟩ := said
    exact .value (.name _) (by rintro ⟨_, _⟩ ⟨⟩; rfl)
  · obtain _ | ⟨⟨_⟩, _ | ⟨⟨_⟩, _ | ⟨⟨_⟩, _ | _⟩⟩⟩ := said
    exact .value (.typed _ _ _) (by rintro ⟨_, _⟩ ⟨⟩; rfl)
  · obtain _ | ⟨⟨_⟩, _ | ⟨⟨_⟩, _ | ⟨⟨_⟩, _ | ⟨⟨_⟩, _ | _⟩⟩⟩⟩ := said
    exact .value (.nillable _ _ _ _) (by rintro ⟨_, _⟩ ⟨⟩; rfl)
  · rename_i notNothing notName notTyped notNillable
    apply invalidArguments_decides
    rintro ⟨_, _⟩ given
    cases given with
    | nothing =>
        cases said
        exact notNothing rfl
    | name =>
        obtain _ | ⟨⟨_⟩, _ | _⟩ := said
        exact notName _ rfl
    | typed =>
        obtain _ | ⟨⟨_⟩, _ | ⟨⟨_⟩, _ | ⟨⟨_⟩, _ | _⟩⟩⟩ := said
        exact notTyped _ _ rfl
    | nillable =>
        obtain _ | ⟨⟨_⟩, _ | ⟨⟨_⟩, _ | ⟨⟨_⟩, _ | ⟨⟨_⟩, _ | _⟩⟩⟩⟩ := said
        exact notNillable _ _ rfl

theorem declaredName_decides (said : List.Forall₂ ArgumentMeaning.Says meanings arguments) :
    Decides (DeclaredName arguments) (declaredName keyword span meanings) := by
  unfold declaredName
  split
  · obtain _ | ⟨⟨name⟩, _ | _⟩ := said
    by_cases wild : name.qname = .wildcard
    · have refused : ∀ other, ¬DeclaredName [.name name] other := by
        rintro _ ⟨_, concrete⟩
        exact concrete wild
      simpa [unlessWildcard, wild, bind, Except.bind] using invalidArguments_decides _ refused
    · have given : Decides (DeclaredName [.name name]) (.ok name.qname) :=
        .value (.name name wild) (by rintro _ ⟨⟩; rfl)
      simpa [unlessWildcard, wild, bind, Except.bind, pure, Except.pure] using given
  · rename_i notName
    apply invalidArguments_decides
    rintro _ ⟨⟩
    obtain _ | ⟨⟨_⟩, _ | _⟩ := said
    exact notName _ rfl

theorem instructionTarget_decides
    (said : List.Forall₂ ArgumentMeaning.Says meanings arguments) :
    Decides (Target arguments) (instructionTarget span meanings) := by
  unfold instructionTarget
  split
  · cases said
    exact .value .nothing (by rintro _ ⟨⟩; rfl)
  · obtain _ | ⟨⟨name⟩, _ | _⟩ := said
    dsimp only [bind, Except.bind]
    split
    · rename_i target concrete
      refine .value (.name name target concrete) ?_
      rintro _ (_ | ⟨_, other, same⟩ | _)
      have equal := concrete.symm.trans same
      simp only [QName.mk.injEq, NamePart.named.injEq, true_and] at equal
      rw [equal]
    · rename_i notConcrete
      apply invalidArguments_decides
      rintro _ (_ | ⟨_, target, concrete⟩ | _)
      exact notConcrete target concrete
  · obtain _ | ⟨⟨_⟩, _ | _⟩ := said
    exact .value (.literal _) (by rintro _ ⟨⟩; rfl)
  · rename_i notNothing notName notLiteral
    apply invalidArguments_decides
    intro _ given
    cases given with
    | nothing =>
        cases said
        exact notNothing rfl
    | name =>
        obtain _ | ⟨⟨_⟩, _ | _⟩ := said
        exact notName _ rfl
    | literal =>
        obtain _ | ⟨⟨_⟩, _ | _⟩ := said
        exact notLiteral _ rfl

/-- What a document test with the given arguments stands for. -/
inductive DocumentOf : List Grammar.Argument → PathCover.KindTest → Prop where
  | nothing : DocumentOf [] .document
  | inner {keyword : Sign .name} {opener : Sign .parenOpen} {arguments : List Grammar.Argument}
      {closer : Sign .parenClose} {kind : PathCover.KindTest}
      (meaning : Grammar.KindTest.Denotes ⟨keyword, opener, arguments, closer⟩ kind)
      (elements : Grammar.isElementTest kind = true) :
      DocumentOf [.nested keyword opener arguments closer] (.documentOf kind)

theorem documentTest_decides (said : List.Forall₂ ArgumentMeaning.Says meanings arguments) :
    Decides (DocumentOf arguments) (documentTest span meanings) := by
  unfold documentTest
  split
  · cases said
    exact .value .nothing (by rintro _ ⟨⟩; rfl)
  · obtain _ | ⟨⟨_⟩, _ | _⟩ := said
    rename_i keyword opener arguments closer decides
    cases decides with
    | @value kind meaning only =>
        have same : ∀ {other}, DocumentOf [.nested keyword opener arguments closer] other →
            Grammar.isElementTest kind = true ∧ other = .documentOf kind := by
          rintro _ (_ | ⟨otherMeaning, elements⟩)
          rw [← only _ otherMeaning]
          exact ⟨elements, rfl⟩
        dsimp only [bind, Except.bind]
        split
        · exact .value (.inner meaning rfl) fun _ given => (same given).2
        · exact .value (.inner meaning rfl) fun _ given => (same given).2
        · rename_i notElement notDeclared
          apply invalidArguments_decides
          intro _ given
          have elements := (same given).1
          unfold Grammar.isElementTest at elements
          split at elements
          · exact notElement _ _ rfl
          · exact notDeclared _ rfl
          · cases elements
    | refused error nothing =>
        refine .refused error ?_
        rintro _ (_ | ⟨meaning, _⟩)
        exact nothing _ meaning
  · rename_i notNothing notKind
    apply invalidArguments_decides
    intro _ given
    cases given with
    | nothing =>
        cases said
        exact notNothing rfl
    | inner =>
        obtain _ | ⟨⟨_⟩, _ | _⟩ := said
        exact notKind _ rfl

/-! ## Kind tests -/

/-- The keyword of a kind test. -/
def keywordOf : PathCover.KindTest → String
  | .anyKind => "node"
  | .text => "text"
  | .comment => "comment"
  | .element .. => "element"
  | .attribute .. => "attribute"
  | .schemaElement _ => "schema-element"
  | .schemaAttribute _ => "schema-attribute"
  | .processingInstruction _ => "processing-instruction"
  | .document | .documentOf _ => "document-node"

theorem has_keywordOf {test : Grammar.KindTest} {kind : PathCover.KindTest}
    (meaning : test.Denotes kind) : test.Has (keywordOf kind) := by
  cases meaning <;> assumption

theorem has_iff {test : Grammar.KindTest} (same : keyword.lexeme = test.keyword.lexeme)
    (word : String) : test.Has word ↔ keyword.text = word := by
  have text : keyword.text.toList = test.keyword.text := congrArg Token.Lexeme.text same
  rw [Grammar.KindTest.Has, ← text]
  exact String.toList_inj

/-- The keyword decides which of the rules for kind tests can apply. -/
theorem kindTestOf_decides {test : Grammar.KindTest}
    (same : keyword.lexeme = test.keyword.lexeme)
    (said : List.Forall₂ ArgumentMeaning.Says meanings test.arguments) :
    Decides test.Denotes (kindTestOf keyword span meanings) := by
  have keywordEq : ∀ {kind}, test.Denotes kind → keyword.text = keywordOf kind :=
    fun meaning => (has_iff same _).mp (has_keywordOf meaning)
  unfold kindTestOf
  split
  case h_10 notNode notText notComment notElement notAttribute notSchemaElement
      notSchemaAttribute notInstruction notDocument =>
    refine .refused rfl fun kind meaning => ?_
    have word := keywordEq meaning
    cases kind <;> simp_all [keywordOf]
  all_goals
    rename_i word
    have has := (has_iff same _).mpr word
    rw [word] at keywordEq
  case h_1 | h_2 | h_3 =>
    refine (withoutArguments_decides said).congr fun kind => ⟨?_, fun meaning => ?_⟩
    · rintro ⟨nothing, rfl⟩
      constructor <;> assumption
    · have only := keywordEq meaning
      cases meaning <;> simp [keywordOf] at only
      exact ⟨‹_›, rfl⟩
  case h_4 | h_5 =>
    refine (nameAndType_decides said).map fun kind => ⟨fun meaning => ?_, ?_⟩
    · have only := keywordEq meaning
      cases meaning <;> simp [keywordOf] at only
      exact ⟨(_, _), ‹_›, rfl⟩
    · rintro ⟨_, given, rfl⟩
      constructor <;> assumption
  case h_6 | h_7 =>
    refine (declaredName_decides said).map fun kind => ⟨fun meaning => ?_, ?_⟩
    · have only := keywordEq meaning
      cases meaning <;> simp [keywordOf] at only
      exact ⟨_, ‹_›, rfl⟩
    · rintro ⟨_, given, rfl⟩
      constructor <;> assumption
  case h_8 =>
    refine (instructionTarget_decides said).map fun kind => ⟨fun meaning => ?_, ?_⟩
    · have only := keywordEq meaning
      cases meaning <;> simp [keywordOf] at only
      exact ⟨_, ‹_›, rfl⟩
    · rintro ⟨_, given, rfl⟩
      exact .processingInstruction has given
  case h_9 =>
    obtain ⟨ownKeyword, opener, arguments, closer⟩ := test
    refine (documentTest_decides said).congr fun kind => ⟨?_, fun meaning => ?_⟩
    · intro given
      cases given with
      | nothing => exact .document has rfl
      | inner meaning elements => exact .documentOf has rfl meaning elements
    · have only := keywordEq meaning
      cases meaning <;> simp [keywordOf] at only
      · rename_i nothing
        cases nothing
        exact .nothing
      · rename_i meaning elements _ given
        cases given
        exact .inner meaning elements

/-! ## From arguments to paths -/

mutual

/-- An argument that shows a derivation contributes what the derivation says. -/
theorem Argument.says_of_shows (argument : Argument) {derived : Grammar.Argument}
    (shown : argument.Shows derived) :
    ∃ meaning, argument.meaning = [meaning] ∧ meaning.Says derived := by
  cases shown with
  | name shown =>
      rw [Argument.meaning, shown.qname_eq]
      exact ⟨_, rfl, .name _⟩
  | @comma leaf sign same =>
      have kind : leaf.kind = .comma := Leaf.kind_of_sign same
      rw [Argument.meaning, kind]
      exact ⟨_, rfl, .comma sign⟩
  | @question leaf sign same =>
      have kind : leaf.kind = .question := Leaf.kind_of_sign same
      rw [Argument.meaning, kind]
      exact ⟨_, rfl, .question sign⟩
  | @literal leaf sign same =>
      have kind : leaf.kind = .stringLiteral := Leaf.kind_of_sign same
      have text : leaf.token.text = String.ofList sign.text := by
        rw [← String.ofList_toList (s := leaf.token.text)]
        exact congrArg String.ofList (congrArg Token.Lexeme.text same)
      rw [Argument.meaning, kind]
      refine ⟨_, rfl, ?_⟩
      rw [text]
      exact .literal sign
  | @nested _ keyword _ _ arguments _ _ _ _ sameKeyword _ shown _ =>
      have said := Argument.say_of_show arguments shown
      rw [Argument.meaning]
      exact ⟨_, rfl, .kind (kindTestOf_decides sameKeyword said)⟩
termination_by sizeOf argument

theorem Argument.say_of_show (arguments : List Argument) {derived : List Grammar.Argument}
    (shown : List.Forall₂ Argument.Shows arguments derived) :
    List.Forall₂ ArgumentMeaning.Says (Argument.meaningOf arguments) derived := by
  cases shown with
  | nil => exact .nil
  | @cons argument _ rest _ head tail =>
      obtain ⟨meaning, equal, stated⟩ := Argument.says_of_shows argument head
      rw [Argument.meaningOf, equal]
      exact .cons stated (Argument.say_of_show rest tail)
termination_by sizeOf arguments

end

theorem KindTest.Shows.decides {test : KindTest} {derived : Grammar.KindTest}
    (shown : test.Shows derived) : Decides derived.Denotes test.meaning := by
  obtain ⟨_, _, _, _, _⟩ := test
  cases shown with
  | nested sameKeyword _ shown _ =>
      exact kindTestOf_decides sameKeyword (Argument.say_of_show _ shown)

theorem NodeTest.Shows.decides {test : NodeTest} {derived : Grammar.NodeTest}
    (shown : test.Shows derived) : Decides derived.Denotes test.meaning := by
  cases shown with
  | name shown =>
      rw [NodeTest.meaning, shown.qname_eq]
      exact .value (.name _) (by rintro _ ⟨⟩; rfl)
  | kind shown =>
      refine shown.decides.map fun result => ⟨?_, ?_⟩
      · intro given
        cases given with
        | kind meaning => exact ⟨_, meaning, rfl⟩
      · rintro ⟨_, meaning, rfl⟩
        exact .kind meaning

/-- The axis of a name, if it names one. -/
theorem axisOf_decides {leaf : Leaf} {name : Sign .name} (same : leaf.lexeme = name.lexeme) :
    Decides (fun axis : Axis => name.text = axis.render.toList) (axisOf leaf.token) := by
  have text : leaf.token.text.toList = name.text := congrArg Token.Lexeme.text same
  unfold axisOf
  split
  · rename_i axis found
    have rendered : axis.render = leaf.token.text := by
      simpa using List.find?_some found
    refine .value (by rw [rendered, text]) fun other given => ?_
    have equal : axis.render = other.render := by
      rw [rendered]
      exact String.toList_inj.mp (text.trans given)
    exact Option.some.inj (by rw [← Axis.ofName?_render, ← Axis.ofName?_render, equal])
  · rename_i notFound
    refine .refused ?_ fun axis given => ?_
    · simp only [Diagnostic.isError, Diagnostic.plain, Diagnostic.severity]
      split <;> rfl
    · have equal : leaf.token.text = axis.render := String.toList_inj.mp (text.trans given)
      rw [equal, Axis.ofName?_render] at notFound
      cases notFound

theorem StepBody.Shows.decides {body : StepBody} {derived : Grammar.StepBody}
    (shown : body.Shows derived) : Decides derived.Denotes body.meaning := by
  cases shown with
  | @self leaf sign same =>
      have kind : leaf.kind = .dot := Leaf.kind_of_sign same
      rw [StepBody.meaning, kind]
      exact .value (.self sign) (by rintro _ ⟨⟩; rfl)
  | @parent leaf sign same =>
      have kind : leaf.kind = .dotDot := Leaf.kind_of_sign same
      rw [StepBody.meaning, kind]
      exact .value (.parent sign) (by rintro _ ⟨⟩; rfl)
  | plain shown =>
      refine shown.decides.map fun result => ⟨?_, ?_⟩
      · intro given
        cases given with
        | implied meaning => exact ⟨_, meaning, rfl⟩
      · rintro ⟨_, meaning, rfl⟩
        exact .implied meaning
  | marked shownAxis shown =>
      cases shownAxis with
      | @short _ sign _ =>
          refine shown.decides.map fun result => ⟨?_, ?_⟩
          · intro given
            cases given with
            | short _ meaning => exact ⟨_, meaning, rfl⟩
          · rintro ⟨_, meaning, rfl⟩
            exact .short sign meaning
      | @named name _ derivedName derivedColons sameName _ =>
          rw [StepBody.meaning]
          have axisDecides := axisOf_decides sameName
          cases outcome : axisOf name.token <;> rw [outcome] at axisDecides <;>
            cases axisDecides
          case ok.value axis known only =>
            refine shown.decides.map fun result => ⟨fun given => ?_, ?_⟩
            · cases given with
              | named _ _ otherKnown meaning =>
                  rw [only _ otherKnown]
                  exact ⟨_, meaning, rfl⟩
            · rintro ⟨_, meaning, rfl⟩
              exact .named derivedName derivedColons known meaning
          case error.refused error nothing =>
            refine .refused error fun result given => ?_
            cases given with
            | named _ _ known _ => exact nothing _ known

/-! ## Reports and paths -/

theorem depthOf_eq {leaf : Leaf} {separator : Separator}
    (same : leaf.lexeme = separator.lexeme) : depthOf leaf = separator.depth := by
  have kind : leaf.kind = separator.kind := congrArg Token.Lexeme.kind same
  rw [depthOf, Grammar.Separator.depth, kind]

theorem later_separator {leaf : Leaf} {separator : Separator}
    (same : leaf.lexeme = separator.lexeme) :
    (PathPart.separator leaf).later = separator.interior := by
  have sameDepth := depthOf_eq same
  cases depth : separator.depth <;>
    simp only [PathPart.later, Grammar.Separator.interior, sameDepth, depth]

theorem Step.Shows.later_eq {step : Step} {derived : Grammar.Step} {meaning : AxisStep}
    (shown : step.Shows derived) (denotes : derived.Denotes meaning) :
    (PathPart.step step).later = [.axis meaning] := by
  rw [PathPart.later, shown.body.decides.eq_ok denotes]
  rfl

/-- A step with a meaning is reported only for its predicates. -/
theorem Step.Shows.report_eq {step : Step} {derived : Grammar.Step} {meaning : AxisStep}
    (shown : step.Shows derived) (denotes : derived.Denotes meaning) :
    (PathPart.step step).report = step.predicates.map Predicate.ignored := by
  rw [PathPart.report, Step.report, shown.body.decides.eq_ok denotes]
  simp

/-- A step that reports no error has a meaning. -/
theorem Step.Shows.denotes {step : Step} {derived : Grammar.Step} (shown : step.Shows derived)
    (harmless : ∀ diagnostic ∈ (PathPart.step step).report, diagnostic.isError = false) :
    ∃ meaning, derived.Denotes meaning := by
  have decides := shown.body.decides
  cases outcome : step.body.meaning <;> rw [outcome] at decides <;> cases decides
  case ok.value meaning holds _ => exact ⟨meaning, holds⟩
  case error.refused diagnostic error _ =>
    have reported : diagnostic ∈ (PathPart.step step).report := by
      simp [PathPart.report, Step.report, outcome, Refusal.report]
    rw [harmless diagnostic reported] at error
    cases error

theorem LaterShow.meaning_eq {parts : List PathPart} {later : List LaterStep}
    {path : PathCover.Path} (shown : LaterShow parts later)
    (denotes : Grammar.LaterDenote later path) : parts.flatMap PathPart.later = path := by
  induction denotes generalizing parts with
  | nil =>
      cases shown
      rfl
  | cons separator first _ ih =>
      cases shown with
      | cons same shown rest =>
          simp only [List.flatMap_cons, later_separator same, shown.later_eq first, ih rest]
          rfl

theorem LaterShow.report_eq {parts : List PathPart} {later : List LaterStep}
    {path : PathCover.Path} (shown : LaterShow parts later)
    (denotes : Grammar.LaterDenote later path) :
    ∃ ignored : List Predicate,
      ignored.length = (later.flatMap (·.2.predicates)).length ∧
        parts.flatMap PathPart.report = ignored.map Predicate.ignored := by
  induction denotes generalizing parts with
  | nil =>
      cases shown
      exact ⟨[], rfl, rfl⟩
  | cons separator first _ ih =>
      cases shown with
      | @cons _ _ step _ _ _ same shown rest =>
          obtain ⟨ignored, length, equal⟩ := ih rest
          refine ⟨step.predicates ++ ignored, ?_, ?_⟩
          · simp only [List.length_append, List.flatMap_cons, length, shown.predicates]
          · simp only [List.flatMap_cons, shown.report_eq first, equal, List.map_append]
            rfl

theorem LaterShow.denotes {parts : List PathPart} {later : List LaterStep}
    (shown : LaterShow parts later)
    (harmless : ∀ diagnostic ∈ parts.flatMap PathPart.report, diagnostic.isError = false) :
    ∃ path, Grammar.LaterDenote later path := by
  induction shown with
  | nil => exact ⟨[], .nil⟩
  | cons same shown rest ih =>
      simp only [List.flatMap_cons, List.mem_append] at harmless
      obtain ⟨meaning, first⟩ := shown.denotes fun diagnostic member =>
        harmless diagnostic (.inr (.inl member))
      obtain ⟨path, denotes⟩ := ih fun diagnostic member =>
        harmless diagnostic (.inr (.inr member))
      exact ⟨_, .cons _ first denotes⟩

/-- The parts of a tree that shows a derivation with a meaning have that meaning. -/
theorem PartsShow.meaning_eq {parts : List PathPart} {derived : Grammar.Path}
    {path : PathCover.Path} (shown : PartsShow parts derived) (denotes : derived.Denotes path) :
    meaningOfParts parts = path := by
  cases denotes with
  | root slash =>
      cases shown with
      | @root leaf _ same =>
          have kind : leaf.kind = .slash := Leaf.kind_of_sign same
          simp [meaningOfParts, PathPart.leading, depthOf, kind]
  | steps leading first rest =>
      cases shown with
      | relative shown shownRest =>
          rw [meaningOfParts, PathPart.leading, shown.later_eq first, shownRest.meaning_eq rest]
          rfl
      | absolute same shown shownRest =>
          rw [meaningOfParts, PathPart.leading, depthOf_eq same, List.flatMap_cons,
            shown.later_eq first, shownRest.meaning_eq rest]
          rfl

/-- The parts of a tree that shows a derivation with a meaning are reported only for their
predicates. -/
theorem PartsShow.report_eq {parts : List PathPart} {derived : Grammar.Path}
    {path : PathCover.Path} (shown : PartsShow parts derived) (denotes : derived.Denotes path) :
    ∃ ignored : List Predicate, ignored.length = derived.predicates.length ∧
      parts.flatMap PathPart.report = ignored.map Predicate.ignored := by
  cases denotes with
  | root slash =>
      cases shown
      exact ⟨[], rfl, rfl⟩
  | steps leading first rest =>
      have whole : ∀ {step : Step} {derived : Grammar.Step} {meaning : AxisStep}
          {parts : List PathPart} {later : List LaterStep} {path : PathCover.Path},
          step.Shows derived → derived.Denotes meaning → LaterShow parts later →
          Grammar.LaterDenote later path → ∃ ignored : List Predicate,
            ignored.length = (derived.predicates ++ later.flatMap (·.2.predicates)).length ∧
              (PathPart.step step :: parts).flatMap PathPart.report =
                ignored.map Predicate.ignored := by
        intro step derived meaning parts later path shown first shownRest rest
        obtain ⟨ignored, length, equal⟩ := shownRest.report_eq rest
        refine ⟨step.predicates ++ ignored, ?_, ?_⟩
        · simp only [List.length_append, length, shown.predicates]
        · rw [List.flatMap_cons, shown.report_eq first, equal, List.map_append]
      cases shown with
      | relative shown shownRest => exact whole shown first shownRest rest
      | absolute same shown shownRest => exact whole shown first shownRest rest

/-- If the parts of a tree that shows a derivation report no error, the derivation has a meaning. -/
theorem PartsShow.denotes {parts : List PathPart} {derived : Grammar.Path}
    (shown : PartsShow parts derived)
    (harmless : ∀ diagnostic ∈ parts.flatMap PathPart.report, diagnostic.isError = false) :
    ∃ path, derived.Denotes path := by
  cases shown with
  | @root _ slash _ => exact ⟨_, .root slash⟩
  | relative shown rest =>
      simp only [List.flatMap_cons, List.mem_append] at harmless
      obtain ⟨meaning, first⟩ := shown.denotes fun diagnostic member =>
        harmless diagnostic (.inl member)
      obtain ⟨path, later⟩ := rest.denotes fun diagnostic member =>
        harmless diagnostic (.inr member)
      exact ⟨_, .steps none first later⟩
  | @absolute _ separator _ _ _ _ same shown rest =>
      simp only [List.flatMap_cons, List.mem_append] at harmless
      obtain ⟨meaning, first⟩ := shown.denotes fun diagnostic member =>
        harmless diagnostic (.inr (.inl member))
      obtain ⟨path, later⟩ := rest.denotes fun diagnostic member =>
        harmless diagnostic (.inr (.inr member))
      exact ⟨_, .steps (some separator) first later⟩

end PathCover.Tree
