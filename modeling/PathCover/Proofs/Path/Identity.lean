import PathCover.Proofs.Path.ReadBack

/-!
# Which paths have the same written form

The names of the path of a valid text are names, so the path can be read back from its written form
as far as that shows it.  Two such paths are written alike exactly if they show the same: they may
differ in a type behind no name and in an empty target, which are not written.  A target that holds
a `)` is written as it is, and so can look like the end of its kind test.
-/

namespace PathCover

open Token (Lexeme)

/-! ## Names -/

namespace Grammar

/-- The names among tokens have the shape of names. -/
def Spelled (lexemes : List Lexeme) : Prop :=
  ∀ lexeme ∈ lexemes, lexeme.kind = .name → Token.isNameText lexeme.text = true

theorem Spelled.mono {lexemes others : List Lexeme} (spelled : Spelled others)
    (fewer : lexemes ⊆ others) : Spelled lexemes :=
  fun lexeme member => spelled lexeme (fewer member)

theorem Terminal.namePart_canonical {terminal : Terminal TokenKind.startsNameTest}
    (spelled : terminal.kind = .name → Token.isNameText terminal.text = true) :
    terminal.namePart.Canonical := by
  rw [namePart]
  rcases Tree.startsNameTest_cases terminal.admits with isName | isStar
  · have notStar : terminal.kind ≠ .star := by
      rw [Terminal.kind, isName]
      decide
    rw [if_neg notStar]
    apply Token.isName_iff.mpr
    rw [String.toList_ofList]
    exact spelled isName
  · rw [if_pos (show terminal.kind = .star from isStar)]
    trivial

theorem NameTest.qname_canonical {test : NameTest} (spelled : Spelled test.lexemes) :
    test.qname.Canonical := by
  obtain ⟨first, _ | ⟨colon, second⟩⟩ := test
  · refine ⟨by rintro _ ⟨⟩, Terminal.namePart_canonical (spelled _ ?_)⟩
    exact List.mem_cons_self
  · refine ⟨?_, Terminal.namePart_canonical (spelled _ ?_)⟩
    · rintro _ ⟨rfl⟩
      exact Terminal.namePart_canonical (spelled _ List.mem_cons_self)
    · exact List.mem_cons_of_mem _ (List.mem_cons_of_mem _ List.mem_cons_self)

/-! ## Kind tests -/

theorem Argument.lexemes_subset {argument : Argument} {arguments : List Argument}
    (member : argument ∈ arguments) : argument.lexemes ⊆ Argument.lexemesOf arguments := by
  induction arguments with
  | nil => cases member
  | cons first rest ih =>
      rw [Argument.lexemesOf]
      rcases List.mem_cons.mp member with rfl | member
      · exact List.subset_append_left _ _
      · exact List.subset_append_of_subset_right _ (ih member)

theorem KindTest.argument_subset {test : KindTest} {argument : Argument}
    (member : argument ∈ test.arguments) : argument.lexemes ⊆ test.lexemes := by
  rw [KindTest.lexemes, KindTest.argument, Argument.lexemes]
  intro lexeme inArgument
  have inArguments := Argument.lexemes_subset member inArgument
  exact List.mem_cons_of_mem _ (List.mem_cons_of_mem _ (List.mem_append_left _ inArguments))

/-- The names among arguments are well spelled. -/
def WellNamed (arguments : List Argument) : Prop :=
  ∀ name, .name name ∈ arguments → name.qname.Canonical

theorem KindTest.wellNamed {test : KindTest} (spelled : Spelled test.lexemes) :
    WellNamed test.arguments := by
  intro name member
  have fewer := KindTest.argument_subset member
  rw [Argument.lexemes] at fewer
  exact NameTest.qname_canonical (spelled.mono fewer)

theorem canonical_of_unlessWildcard {name : QName} (canonical : name.Canonical) :
    ∀ one ∈ Tree.unlessWildcard name, one.Canonical := by
  intro one isName
  rw [Tree.unlessWildcard] at isName
  split at isName <;> cases isName
  exact canonical

theorem NameAndType.canonical {arguments : List Argument} {name typeName : Option QName}
    (given : NameAndType arguments name typeName) (named : WellNamed arguments) :
    (∀ one ∈ name, one.Canonical) ∧ ∀ one ∈ typeName, one.Canonical := by
  cases given with
  | nothing => simp
  | name name =>
      exact ⟨canonical_of_unlessWildcard (named name (by simp)), by rintro _ ⟨⟩⟩
  | typed name typeName comma | nillable name typeName comma question =>
      refine ⟨canonical_of_unlessWildcard (named name (by simp)), ?_⟩
      rintro _ ⟨rfl⟩
      exact named typeName (by simp)

theorem DeclaredName.canonical {arguments : List Argument} {name : QName}
    (given : DeclaredName arguments name) (named : WellNamed arguments) : name.Canonical := by
  cases given with
  | name name => exact named name (by simp)

/-- A kind test with well-spelled names is legible if its target is. -/
theorem KindTest.Denotes.legible {test : KindTest} {kind : PathCover.KindTest}
    (denotes : test.Denotes kind) (spelled : Spelled test.lexemes)
    (closed : ∀ target, kind = .processingInstruction (some target) → ')' ∉ target.toList) :
    kind.Legible := by
  have named := KindTest.wellNamed spelled
  induction denotes with
  | anyKind => exact .anyKind
  | text => exact .text
  | comment => exact .comment
  | element _ given => exact .element (given.canonical named).1 (given.canonical named).2
  | «attribute» _ given => exact .attribute (given.canonical named).1 (given.canonical named).2
  | schemaElement _ given => exact .schemaElement (given.canonical named)
  | schemaAttribute _ given => exact .schemaAttribute (given.canonical named)
  | processingInstruction =>
      refine .processingInstruction ?_
      rintro target ⟨rfl⟩
      exact closed target rfl
  | document => exact .document
  | @documentOf test inner kind _ only _ elements ih =>
      have spelledInner : Spelled inner.lexemes :=
        spelled.mono (KindTest.argument_subset (by rw [only]; exact List.mem_cons_self))
      refine .documentOf (ih spelledInner ?_ (KindTest.wellNamed spelledInner)) elements
      rintro target rfl
      cases elements

/-! ## Paths -/

theorem NodeTest.Denotes.legible {test : NodeTest} {accepted : PathCover.NodeTest}
    (denotes : test.Denotes accepted) (spelled : Spelled test.lexemes)
    (closed : ∀ target, accepted = .kind (.processingInstruction (some target)) →
      ')' ∉ target.toList) : accepted.Legible := by
  cases denotes with
  | name => exact NameTest.qname_canonical spelled
  | kind meaning =>
      refine KindTest.Denotes.legible meaning spelled ?_
      rintro target rfl
      exact closed target rfl

theorem Step.Denotes.legible {step : Step} {meaning : AxisStep} (denotes : step.Denotes meaning)
    (spelled : Spelled step.lexemes)
    (closed : ∀ target, meaning.test = .kind (.processingInstruction (some target)) →
      ')' ∉ target.toList) : meaning.test.Legible := by
  obtain ⟨body, predicates⟩ := step
  have spelledBody : Spelled body.lexemes := spelled.mono (List.subset_append_left _ _)
  cases denotes with
  | self | parent => exact .anyKind
  | implied test => exact test.legible spelledBody closed
  | short sign test => exact test.legible (spelledBody.mono (List.subset_append_right _ _)) closed
  | named name colons known test =>
      exact test.legible (spelledBody.mono (List.subset_append_right _ _)) closed

end Grammar

/-- The target that a step to processing instructions asks for. -/
def AxisStep.target? (step : AxisStep) : Option String :=
  match step.test with
  | .kind (.processingInstruction target) => target
  | _ => none

/-- A path none of whose targets holds a `)`. -/
def Path.TargetsClose (path : Path) : Prop :=
  ∀ step ∈ path.filterMap Step.axisStep?, ∀ target ∈ step.target?, ')' ∉ target.toList

instance (path : Path) : Decidable path.TargetsClose :=
  inferInstanceAs (Decidable (∀ step ∈ path.filterMap Step.axisStep?, _))

namespace Grammar

theorem Path.Denotes.legible {derived : Path} {path : PathCover.Path}
    (denotes : derived.Denotes path) (spelled : Spelled derived.lexemes)
    (closed : path.TargetsClose) : ∀ step, .axis step ∈ path → step.test.Legible := by
  intro step member
  obtain ⟨written, denotesStep, fewer⟩ := denotes.exists_step member
  refine denotesStep.legible (spelled.mono fewer) ?_
  intro target isTarget
  refine closed step (List.mem_filterMap.mpr ⟨_, member, rfl⟩) target ?_
  rw [AxisStep.target?, isTarget]
  rfl

end Grammar

/-! ## The written form shows the path -/

theorem KindTest.render_shown (kind : KindTest) : kind.shown.render = kind.render := by
  induction kind with
  | element name typeName => cases name <;> rfl
  | «attribute» name typeName => cases name <;> rfl
  | processingInstruction target =>
      cases target with
      | none => rfl
      | some target =>
          by_cases empty : target = ""
          · subst empty
            rfl
          · simp [shown, Option.filter, empty]
  | documentOf inner ih => exact congrArg (fun text => "document-node(" ++ text ++ ")") ih
  | anyKind | text | comment | document | schemaElement | schemaAttribute => rfl

theorem KindTest.selectsAttributes_shown (kind : KindTest) :
    kind.shown.selectsAttributes = kind.selectsAttributes := by
  cases kind <;> rfl

theorem KindTest.shown_eq_anyKind {kind : KindTest} : kind.shown = .anyKind ↔ kind = .anyKind := by
  cases kind <;> simp [shown]

theorem AxisStep.render_shown (step : AxisStep) : step.shown.render = step.render := by
  obtain ⟨axis, name | kind⟩ := step
  · rfl
  · by_cases isAny : kind = .anyKind
    · subst isAny
      rfl
    · have isAnyShown : kind.shown ≠ .anyKind := KindTest.shown_eq_anyKind.not.mpr isAny
      cases axis <;>
        simp [shown, NodeTest.shown, render, NodeTest.render, isAny, isAnyShown,
          KindTest.render_shown, KindTest.selectsAttributes_shown]

theorem Step.render_shown (step : Step) : step.shown.render = step.render := by
  cases step with
  | separator => rfl
  | axis step => exact step.render_shown

/-- What a written form leaves out makes no difference to it. -/
theorem Path.render_shown (path : Path) : path.shown.render = path.render := by
  fun_induction Path.render path with
  | case1 => rfl
  | case2 step => exact step.render_shown
  | case3 first second rest ih =>
      have split : Path.render (Path.shown (.axis first :: .axis second :: rest)) =
          first.shown.render ++ "/" ++ Path.render (Path.shown (.axis second :: rest)) := rfl
      rw [split, ih, first.render_shown]
  | case4 step rest nonempty apart ih =>
      have split : Path.render (Path.shown (step :: rest)) =
          step.shown.render ++ Path.render (Path.shown rest) := by
        cases rest with
        | nil => exact (nonempty rfl).elim
        | cons second rest =>
            cases second with
            | separator => cases step <;> rfl
            | axis second =>
                cases step with
                | separator => rfl
                | axis first => exact (apart first second rest rfl rfl).elim
      rw [split, ih, step.render_shown]

namespace ParsedPath

variable {limits otherLimits : Tree.Limits} {text otherText : String} {one other : ParsedPath}

/-- What the path of a valid text shows is read back from its written form. -/
theorem readPath_render (isParsed : parse limits text = .ok one) (valid : one.isValid = true)
    (closed : one.path.TargetsClose) {fuel : Nat} (enough : one.path.length ≤ fuel) :
    Written.readPath fuel one.path.render.toList = one.path.shown := by
  obtain ⟨derived, derives, denotes⟩ := denotes_of_parse isParsed valid
  have spelled : Grammar.Spelled derived.lexemes := by
    rw [derives]
    exact fun lexeme member => Token.isNameText_of_mem_significant member
  exact Written.readPath_render denotes (denotes.legible spelled closed) enough

/-- The paths of two valid texts whose targets hold no `)` are written alike exactly if they differ
at most in a type behind no name and in an empty target. -/
theorem render_eq_iff (isParsed : parse limits text = .ok one) (valid : one.isValid = true)
    (closed : one.path.TargetsClose) (isOtherParsed : parse otherLimits otherText = .ok other)
    (otherValid : other.isValid = true) (otherClosed : other.path.TargetsClose) :
    one.path.render = other.path.render ↔ one.path.shown = other.path.shown := by
  constructor
  · intro alike
    have read := readPath_render isParsed valid closed (Nat.le_add_right _ other.path.length)
    have otherRead :=
      readPath_render isOtherParsed otherValid otherClosed (Nat.le_add_left _ one.path.length)
    rw [← read, alike, otherRead]
  · intro same
    rw [← one.path.render_shown, same, other.path.render_shown]

theorem render_eq_iff_apart :
    ∃ one other, parse .standard "/a//processing-instruction('t')" = .ok one ∧
      parse .none "/a/processing-instruction('t')" = .ok other ∧
      one.path.render ≠ other.path.render := by
  obtain ⟨one, isParsed, evaluated⟩ := exists_of_toOption
    (by decide +kernel :
      (parse .standard "/a//processing-instruction('t')").toOption.map
        (fun one => (one.isValid, decide one.path.TargetsClose, one.path.shown.length)) =
          some (true, true, 4))
  obtain ⟨other, isOtherParsed, otherEvaluated⟩ := exists_of_toOption
    (by decide +kernel :
      (parse .none "/a/processing-instruction('t')").toOption.map
        (fun other => (other.isValid, decide other.path.TargetsClose, other.path.shown.length)) =
          some (true, true, 3))
  simp only [Prod.mk.injEq, decide_eq_true_eq] at evaluated otherEvaluated
  obtain ⟨valid, closed, four⟩ := evaluated
  obtain ⟨otherValid, otherClosed, three⟩ := otherEvaluated
  refine ⟨one, other, isParsed, isOtherParsed, fun alike => ?_⟩
  have same :=
    (render_eq_iff isParsed valid closed isOtherParsed otherValid otherClosed).mp alike
  rw [same, three] at four
  cases four

/-- A type behind no name is not written, nor is any other trace of it. -/
theorem render_eq_of_lost_type :
    ∃ one other, parse .standard "/element(*, xs:int)" = .ok one ∧ one.isValid = true ∧
      parse .standard "/element()" = .ok other ∧ other.isValid = true ∧
      one.path.render = other.path.render ∧ one.path ≠ other.path := by
  obtain ⟨one, isParsed, evaluated⟩ := exists_of_toOption
    (by decide +kernel :
      (parse .standard "/element(*, xs:int)").toOption.map
        (fun one => (one.isValid, one.path.render, one.path)) =
          some (true, "/element()", [.separator .child, .axis ⟨.child, .kind (.element none
            (some ⟨some (.named "xs"), .named "int"⟩))⟩]))
  obtain ⟨other, isOtherParsed, otherEvaluated⟩ := exists_of_toOption
    (by decide +kernel :
      (parse .standard "/element()").toOption.map
        (fun other => (other.isValid, other.path.render, other.path)) =
          some (true, "/element()",
            [.separator .child, .axis ⟨.child, .kind (.element none none)⟩]))
  simp only [Prod.mk.injEq] at evaluated otherEvaluated
  obtain ⟨valid, rendered, isPath⟩ := evaluated
  obtain ⟨otherValid, otherRendered, isOtherPath⟩ := otherEvaluated
  refine ⟨one, other, isParsed, valid, isOtherParsed, otherValid, ?_, ?_⟩
  · rw [rendered, otherRendered]
  · rw [isPath, isOtherPath]
    decide

end ParsedPath

end PathCover
