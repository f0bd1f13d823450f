import PathCover.Proofs.Grammar.Completeness
import PathCover.Proofs.Tree.Neat
import PathCover.Proofs.Tree.Nesting

/-!
# Parts of a path without their predicates

Leaving the predicates out of the parts of a neat path leaves a tree that shows a derivation without
predicates.  What the derivation derives are the tokens that are left when the stretches of the
predicates are taken out, and its groups nest no deeper.
-/

namespace PathCover

/-- The tokens of which steps are made, predicates and blanks aside. -/
def TokenKind.standsInStep (kind : TokenKind) : Bool := kind.standsInPath && !kind.isSeparator

namespace Grammar

open Token (Lexeme)

/-! ## The tokens of a step -/

theorem Sign.standsInStep {kind : TokenKind} (sign : Sign kind)
    (stands : kind.standsInStep = true) : sign.lexeme.kind.standsInStep = true := by
  rwa [sign.kind_eq]

theorem standsInStep_of_startsNameTest (terminal : Terminal TokenKind.startsNameTest) :
    terminal.lexeme.kind.standsInStep = true := by
  have starts := terminal.admits
  cases kind : terminal.lexeme.kind <;> rw [kind] at starts <;> first | rfl | cases starts

theorem NameTest.standsInStep (test : NameTest) :
    ∀ lexeme ∈ test.lexemes, lexeme.kind.standsInStep = true := by
  obtain ⟨first, second⟩ := test
  cases second with
  | none => simpa [NameTest.lexemes] using standsInStep_of_startsNameTest first
  | some pair =>
      simpa [NameTest.lexemes] using ⟨standsInStep_of_startsNameTest first,
        Sign.standsInStep pair.1 rfl, standsInStep_of_startsNameTest pair.2⟩

mutual

theorem Argument.standsInStep (argument : Argument) :
    ∀ lexeme ∈ argument.lexemes, lexeme.kind.standsInStep = true := by
  cases argument with
  | name test =>
      rw [Argument.lexemes]
      exact test.standsInStep
  | comma sign => simpa [Argument.lexemes] using Sign.standsInStep sign rfl
  | question sign => simpa [Argument.lexemes] using Sign.standsInStep sign rfl
  | literal sign => simpa [Argument.lexemes] using Sign.standsInStep sign rfl
  | nested keyword opener arguments closer =>
      rw [Argument.lexemes, List.forall_mem_cons, List.forall_mem_cons, List.forall_mem_append,
        List.forall_mem_singleton]
      exact ⟨Sign.standsInStep keyword rfl, Sign.standsInStep opener rfl,
        Argument.stand_in_step arguments, Sign.standsInStep closer rfl⟩

theorem Argument.stand_in_step (arguments : List Argument) :
    ∀ lexeme ∈ Argument.lexemesOf arguments, lexeme.kind.standsInStep = true := by
  cases arguments with
  | nil => simp [Argument.lexemesOf]
  | cons argument rest =>
      rw [Argument.lexemesOf, List.forall_mem_append]
      exact ⟨Argument.standsInStep argument, Argument.stand_in_step rest⟩

end

theorem NodeTest.standsInStep (test : NodeTest) :
    ∀ lexeme ∈ test.lexemes, lexeme.kind.standsInStep = true := by
  cases test with
  | name test => exact test.standsInStep
  | kind test => exact test.argument.standsInStep

theorem StepBody.standsInStep (body : StepBody) :
    ∀ lexeme ∈ body.lexemes, lexeme.kind.standsInStep = true := by
  cases body with
  | self sign => simpa [StepBody.lexemes] using Sign.standsInStep sign rfl
  | parent sign => simpa [StepBody.lexemes] using Sign.standsInStep sign rfl
  | tested axis test =>
      cases axis with
      | none => exact test.standsInStep
      | some axis =>
          rw [StepBody.lexemes, List.forall_mem_append]
          refine ⟨?_, test.standsInStep⟩
          cases axis with
          | short sign => simpa [AxisMark.lexemes] using Sign.standsInStep sign rfl
          | named name colons =>
              simpa [AxisMark.lexemes] using
                ⟨Sign.standsInStep name rfl, Sign.standsInStep colons rfl⟩

theorem StepBody.lexemes_ne_nil (body : StepBody) : body.lexemes ≠ [] := by
  obtain ⟨first, others, isLexemes, -⟩ := Tree.lexemes_step ⟨body, []⟩ []
  intro nothing
  simp [Step.lexemes, nothing] at isLexemes

/-- What holds of all steps of a path holds of the first and of the later ones. -/
theorem Path.forall_mem_allSteps {holds : Step → Prop} {leading : Option Separator}
    {first : Step} {later : List LaterStep} :
    (∀ step ∈ (Path.steps leading first later).allSteps, holds step) ↔
      holds first ∧ ∀ pair ∈ later, holds pair.2 := by
  rw [Path.allSteps, List.forall_mem_cons, List.forall_mem_map]

end Grammar

namespace Tree

open Element
open Grammar (LaterStep)
open Token (seen chars Spliced Loose)

/-! ## Nesting -/

mutual

/-- What an argument derives from says how deep its groups nest. -/
theorem Argument.nesting_eq (argument other : Argument) {derived : Grammar.Argument}
    (shown : argument.Shows derived) (otherShown : other.Shows derived) :
    nestingOf argument.elements = nestingOf other.elements := by
  cases argument with
  | name test =>
      cases shown
      cases otherShown
      simp
  | mark part =>
      cases shown <;> cases otherShown <;> simp
  | stray => cases shown
  | nested lead keyword opener arguments closer =>
      cases shown with
      | nested _ _ shown _ =>
          cases otherShown with
          | @nested _ _ _ _ others _ _ _ _ _ _ otherShown _ =>
              have inner := Argument.nestings_eq arguments others shown otherShown
              simp [Argument.elements, NodeKind.isGroup, inner]

theorem Argument.nestings_eq (arguments others : List Argument)
    {derived : List Grammar.Argument} (shown : List.Forall₂ Argument.Shows arguments derived)
    (otherShown : List.Forall₂ Argument.Shows others derived) :
    nestingOf (Argument.elementsOf arguments) = nestingOf (Argument.elementsOf others) := by
  cases arguments with
  | nil =>
      cases shown
      cases otherShown
      rfl
  | cons argument arguments =>
      cases shown with
      | cons first rest =>
          cases otherShown with
          | @cons other _ others _ otherFirst otherRest =>
              simp [Argument.nesting_eq argument other first otherFirst,
                Argument.nestings_eq arguments others rest otherRest]

end

theorem NodeTest.Shows.nesting_eq {test other : NodeTest} {derived : Grammar.NodeTest}
    (shown : test.Shows derived) (otherShown : other.Shows derived) :
    nestingOf test.elements = nestingOf other.elements := by
  cases shown with
  | name shown =>
      cases otherShown
      simp [NodeTest.elements]
  | kind shown =>
      cases otherShown with
      | kind otherShown => exact Argument.nesting_eq _ _ shown otherShown

theorem StepBody.Shows.nesting_eq {body other : StepBody} {derived : Grammar.StepBody}
    (shown : body.Shows derived) (otherShown : other.Shows derived) :
    nestingOf body.elements = nestingOf other.elements := by
  have axisFlat : ∀ axis : AxisMark, nestingOf axis.elements = 0 := by
    intro axis
    cases axis <;> simp [AxisMark.elements, NodeKind.isGroup]
  cases shown with
  | self | parent =>
      cases otherShown
      simp [StepBody.elements]
  | plain shown =>
      cases otherShown with
      | plain otherShown =>
          simp [StepBody.elements, optionElements, shown.nesting_eq otherShown]
  | marked _ shown =>
      cases otherShown with
      | marked _ otherShown =>
          simp [StepBody.elements, optionElements, axisFlat, shown.nesting_eq otherShown]

/-! ## Leaving predicates out -/

/-- A step without its predicates. -/
def Step.plain (step : Step) : Step := { step with predicates := [] }

/-- A part of a path without its predicates. -/
def PathPart.plain : PathPart → PathPart
  | .separator part => .separator part
  | .step part => .step part.plain

/-- The stretches of the predicates of a step. -/
def Step.stretches (step : Step) : List Text.Span :=
  step.predicates.map fun predicate => predicate.element.span

/-- The stretches of the predicates of a part of a path. -/
def PathPart.stretches : PathPart → List Text.Span
  | .separator _ => []
  | .step part => part.stretches

/-- The tokens of a step but for its predicates. -/
def Step.kept (step : Step) : List Token :=
  step.lead ++ leavesOf step.body.elements ++ step.predicates.flatMap Predicate.lead

/-- The tokens of a part of a path but for its predicates. -/
def PathPart.kept : PathPart → List Token
  | .separator part => part.tokens
  | .step part => part.kept

theorem PathPart.later_plain (part : PathPart) : part.plain.later = part.later := by
  cases part <;> rfl

theorem PathPart.leading_plain (part : PathPart) : part.plain.leading = part.leading := by
  cases part <;> rfl

theorem meaningOfParts_plain (parts : List PathPart) :
    meaningOfParts (parts.map PathPart.plain) = meaningOfParts parts := by
  cases parts with
  | nil => rfl
  | cons first parts =>
      simp only [List.map_cons, meaningOfParts, PathPart.leading_plain, List.flatMap_map,
        PathPart.later_plain]

/-- Without predicates nothing more is reported. -/
theorem PathPart.report_plain (part : PathPart) : part.plain.report ⊆ part.report := by
  cases part with
  | separator => exact List.Subset.refl _
  | step step => exact List.subset_append_right _ _

/-- A step without predicates nests no deeper. -/
theorem PathPart.nesting_plain (part : PathPart) :
    nestingOf part.plain.elements ≤ nestingOf part.elements := by
  cases part with
  | separator => exact Nat.le_refl _
  | step step =>
      simp only [PathPart.plain, PathPart.elements, Step.plain, Step.elements, Step.element,
        nestingOf_append, nestingOf_cons, nesting_node, List.flatMap_nil, nestingOf_nil]
      omega

/-! ## The tokens that are left -/

/-- What a step is made of in front of its predicates. -/
theorem Step.Neat.standsInStep {step : Step} (neat : step.Neat) :
    ∀ token ∈ leavesOf step.body.elements,
      token.kind.isTrivia = true ∨ token.kind.standsInStep = true := by
  obtain ⟨derived, -, isSeen⟩ := neat.body
  intro token member
  cases trivia : token.kind.isTrivia with
  | true => exact .inl rfl
  | false =>
      have isLexeme : token.lexeme ∈ derived.lexemes := by
        rw [← isSeen, seen]
        exact List.mem_map_of_mem (List.mem_filter.mpr ⟨member, by simp [trivia]⟩)
      exact .inr (derived.standsInStep _ isLexeme)

theorem Step.Neat.body_ne {step : Step} (neat : step.Neat) {kind : TokenKind}
    (visible : kind.isTrivia = false) (apart : kind.standsInStep = false) :
    ∀ token ∈ leavesOf step.body.elements, token.kind ≠ kind := by
  rintro token member rfl
  rcases neat.standsInStep token member with trivia | stands
  · rw [visible] at trivia
    cases trivia
  · rw [apart] at stands
    cases stands

theorem Step.Neat.areBlank_leads {step : Step} (neat : step.Neat) :
    AreBlank (step.predicates.flatMap Predicate.lead) := by
  intro token member
  obtain ⟨predicate, isPredicate, isLead⟩ := List.mem_flatMap.mp member
  exact (neat.predicates predicate isPredicate).lead token isLead

theorem Step.Neat.seen_kept {step : Step} (neat : step.Neat) :
    seen step.kept = seen (leavesOf step.body.elements) := by
  rw [Step.kept, Token.seen_append, Token.seen_append, Token.seen_eq_nil neat.areBlank_leads,
    Token.seen_eq_nil neat.lead, List.nil_append, List.append_nil]

theorem standsInPath_of_standsInStep {kind : TokenKind} (stands : kind.standsInStep = true) :
    kind.standsInPath = true :=
  (Bool.and_eq_true_iff.mp stands).1

theorem PathPart.Neat.stand {part : PathPart} (neat : part.Neat) :
    ∀ token ∈ part.kept, token.Stands := by
  cases part with
  | separator leaf =>
      obtain ⟨blank, separates⟩ := neat
      rw [PathPart.kept, Leaf.tokens, List.forall_mem_append, List.forall_mem_singleton]
      exact ⟨fun token member => .inl (blank token member),
        .inr (TokenKind.standsInPath_of_isSeparator separates)⟩
  | step step =>
      rw [PathPart.kept, Step.kept, List.forall_mem_append, List.forall_mem_append]
      refine ⟨⟨?_, ?_⟩, ?_⟩
      · exact fun token member => .inl (Step.Neat.lead neat token member)
      · intro token member
        exact (Step.Neat.standsInStep neat token member).imp_right standsInPath_of_standsInStep
      · exact fun token member => .inl (Step.Neat.areBlank_leads neat token member)

/-! ## Taking predicates out -/

section Taking

variable {tokens kept : List Token} {spans : List Text.Span}

theorem Predicate.Neat.spliced {predicate : Predicate} (neat : predicate.Neat)
    (spliced : Spliced tokens spans kept) (loose : Loose kept) :
    Spliced (leavesOf predicate.elements ++ tokens) (predicate.element.span :: spans)
      (predicate.lead ++ kept) := by
  obtain ⟨inside, isLeaves⟩ : ∃ inside,
      predicate.element.leaves = predicate.opener.token :: inside := by
    simp [Predicate.element, Leaf.tokens, neat.bare]
  have isSpan : predicate.element.span = Token.stretch predicate.opener.token inside := by
    rw [Token.stretch, ← isLeaves]
    rfl
  rw [Predicate.elements, leavesOf_append, leavesOf_blankElements, leavesOf_cons, leavesOf_nil,
    List.append_nil, isLeaves, isSpan, List.append_assoc]
  have cut : Spliced (predicate.opener.token :: inside ++ tokens)
      (Token.stretch predicate.opener.token inside :: spans) kept :=
    .cut inside neat.opens loose spliced
  exact cut.front (neat.lead.ne rfl)

theorem Step.Neat.spliced_predicates {step : Step} (neat : step.Neat)
    (spliced : Spliced tokens spans kept) (loose : Loose kept) :
    Spliced (leavesOf (step.predicates.flatMap Predicate.elements) ++ tokens)
      (step.stretches ++ spans) (step.predicates.flatMap Predicate.lead ++ kept) := by
  obtain ⟨_, _, _, predicates⟩ := step
  have each := neat.predicates
  clear neat
  dsimp only [Step.stretches] at *
  induction predicates with
  | nil => simpa using spliced
  | cons predicate rest ih =>
      rw [List.forall_mem_cons] at each
      have later := ih each.2
      have behind : Loose (rest.flatMap Predicate.lead ++ kept) := by
        apply loose.behind
        intro token member
        obtain ⟨other, isOther, isLead⟩ := List.mem_flatMap.mp member
        exact (each.2 other isOther).lead token isLead
      simpa [List.append_assoc] using each.1.spliced later behind

theorem Step.Neat.spliced {step : Step} (neat : step.Neat)
    (spliced : Spliced tokens spans kept) (loose : Loose kept) :
    Spliced (leavesOf step.elements ++ tokens) (step.stretches ++ spans) (step.kept ++ kept) := by
  have predicates := neat.spliced_predicates spliced loose
  have body := predicates.front (neat.body_ne rfl rfl)
  have lead := body.front (neat.lead.ne rfl)
  simpa [Step.elements, Step.element, Step.kept, List.append_assoc] using lead

/-- A step does not start with a bracket. -/
theorem Step.Neat.starts {step : Step} (neat : step.Neat) (tokens : List Token) :
    ∀ next ∈ (leavesOf step.elements ++ tokens).head?, next.kind ≠ .bracketOpen := by
  obtain ⟨derived, -, isSeen⟩ := neat.body
  have filled : step.lead ++ leavesOf step.body.elements ≠ [] := by
    intro nothing
    rw [(List.append_eq_nil_iff.mp nothing).2] at isSeen
    exact derived.lexemes_ne_nil isSeen.symm
  have split : leavesOf step.elements ++ tokens = step.lead ++ leavesOf step.body.elements ++
      (leavesOf (step.predicates.flatMap Predicate.elements) ++ tokens) := by
    simp [Step.elements, Step.element]
  intro next isNext
  rw [split, List.head?_append_of_ne_nil _ filled] at isNext
  rcases List.mem_append.mp (List.mem_of_mem_head? isNext) with inLead | inBody
  · exact neat.lead.ne rfl next inLead
  · exact neat.body_ne rfl rfl next inBody

theorem spliced_separator {part : Leaf} (neat : (PathPart.separator part).Neat)
    (spliced : Spliced tokens spans kept)
    (apart : ∀ next ∈ tokens.head?, next.kind ≠ .bracketOpen) :
    Spliced (part.tokens ++ tokens) spans (part.tokens ++ kept) := by
  rw [Leaf.tokens, List.append_assoc, List.append_assoc]
  have token : Spliced (part.token :: tokens) spans (part.token :: kept) :=
    .keep part.token (fun _ => apart) spliced
  exact token.front (neat.1.ne rfl)

theorem LaterShow.spliced {parts : List PathPart} {later : List LaterStep}
    (shown : LaterShow parts later) (neat : ∀ part ∈ parts, part.Neat)
    (spliced : Spliced tokens spans kept) (loose : Loose kept) :
    Spliced (leavesOf (parts.flatMap PathPart.elements) ++ tokens)
        (parts.flatMap PathPart.stretches ++ spans) (parts.flatMap PathPart.kept ++ kept) ∧
      Loose (parts.flatMap PathPart.kept ++ kept) := by
  induction shown with
  | nil => simpa using ⟨spliced, loose⟩
  | @cons leaf _ step _ parts _ _ _ _ ih =>
      rw [List.forall_mem_cons, List.forall_mem_cons] at neat
      obtain ⟨separator, first, rest⟩ := neat
      obtain ⟨later, behind⟩ := ih rest
      have both := spliced_separator separator (Step.Neat.spliced first later behind)
        (Step.Neat.starts first _)
      constructor
      · simpa [PathPart.elements, PathPart.stretches, PathPart.kept] using both
      · have separates : Loose
            (leaf.token :: (step.kept ++ (parts.flatMap PathPart.kept ++ kept))) := by
          rintro _ ⟨rfl⟩
          exact .inr separator.2
        simpa [PathPart.kept, Leaf.tokens] using separates.behind separator.1

/-- The tokens of a path and of the blanks behind it, without the stretches of the predicates. -/
theorem PartsShow.spliced {parts : List PathPart} {derived : Grammar.Path}
    (shown : PartsShow parts derived) (neat : ∀ part ∈ parts, part.Neat) {trail : List Token}
    (blank : AreBlank trail) :
    Spliced (leavesOf (parts.flatMap PathPart.elements) ++ trail)
      (parts.flatMap PathPart.stretches) (parts.flatMap PathPart.kept ++ trail) := by
  have ending : Spliced trail [] trail := by
    simpa using Spliced.nil.front (blank.ne rfl)
  have looseEnding : Loose trail := fun next isNext =>
    .inl (blank next (List.mem_of_mem_head? isNext))
  cases shown with
  | @root leaf _ _ =>
      have alone := spliced_separator (neat _ List.mem_cons_self) ending
        fun next isNext => blank.ne rfl next (List.mem_of_mem_head? isNext)
      simpa [PathPart.elements, PathPart.stretches, PathPart.kept] using alone
  | relative _ rest =>
      rw [List.forall_mem_cons] at neat
      obtain ⟨later, behind⟩ := rest.spliced neat.2 ending looseEnding
      have first := Step.Neat.spliced neat.1 later behind
      simpa [PathPart.elements, PathPart.stretches, PathPart.kept] using first
  | absolute _ _ rest =>
      rw [List.forall_mem_cons, List.forall_mem_cons] at neat
      obtain ⟨separator, first, others⟩ := neat
      obtain ⟨later, behind⟩ := rest.spliced others ending looseEnding
      have both := spliced_separator separator (Step.Neat.spliced first later behind)
        (Step.Neat.starts first _)
      simpa [PathPart.elements, PathPart.stretches, PathPart.kept] using both

end Taking

/-! ## Derivations without predicates -/

theorem Step.Neat.plain {step : Step} (neat : step.Neat) :
    ∃ derived : Grammar.Step, step.plain.Shows derived ∧ derived.lexemes = seen step.kept ∧
      derived.predicates = [] := by
  obtain ⟨derived, shown, isSeen⟩ := neat.body
  refine ⟨⟨derived, []⟩, ⟨shown, rfl⟩, ?_, rfl⟩
  rw [neat.seen_kept, isSeen]
  exact List.append_nil _

theorem seen_separator {part : Leaf} (neat : (PathPart.separator part).Neat) :
    seen (PathPart.separator part).kept = [part.lexeme] := by
  have visible : part.token.kind.isTrivia = false :=
    TokenKind.isTrivia_of_standsInPath (TokenKind.standsInPath_of_isSeparator neat.2)
  rw [PathPart.kept, Leaf.tokens, Token.seen_append, Token.seen_eq_nil neat.1, Token.seen_cons,
    visible]
  rfl

theorem LaterShow.plain {parts : List PathPart} {later : List LaterStep}
    (shown : LaterShow parts later) (neat : ∀ part ∈ parts, part.Neat) :
    ∃ derived : List LaterStep, LaterShow (parts.map PathPart.plain) derived ∧
      derived.flatMap LaterStep.lexemes = seen (parts.flatMap PathPart.kept) ∧
        ∀ pair ∈ derived, pair.2.predicates = [] := by
  induction shown with
  | nil => exact ⟨[], .nil, rfl, by simp⟩
  | @cons leaf separator step _ parts _ same _ _ ih =>
      rw [List.forall_mem_cons, List.forall_mem_cons] at neat
      obtain ⟨separates, first, rest⟩ := neat
      obtain ⟨derived, shownFirst, isSeen, isPlain⟩ := Step.Neat.plain first
      obtain ⟨others, shownRest, areSeen, arePlain⟩ := ih rest
      refine ⟨(separator, derived) :: others, .cons same shownFirst shownRest, ?_, ?_⟩
      · rw [List.flatMap_cons, List.flatMap_cons, List.flatMap_cons, Token.seen_append,
          Token.seen_append, seen_separator separates, same, ← areSeen, PathPart.kept, ← isSeen]
        rfl
      · rw [List.forall_mem_cons]
        exact ⟨isPlain, arePlain⟩

/-- A neat path without its predicates shows a derivation without predicates of the tokens that are
left. -/
theorem PartsShow.plain {parts : List PathPart} {derived : Grammar.Path}
    (shown : PartsShow parts derived) (neat : ∀ part ∈ parts, part.Neat) :
    ∃ plain : Grammar.Path, PartsShow (parts.map PathPart.plain) plain ∧
      plain.lexemes = seen (parts.flatMap PathPart.kept) ∧
        ∀ step ∈ plain.allSteps, step.predicates = [] := by
  cases shown with
  | @root leaf slash same =>
      refine ⟨.root slash, .root same, ?_, by simp [Grammar.Path.allSteps]⟩
      rw [List.flatMap_singleton, seen_separator (neat _ List.mem_cons_self), same]
      rfl
  | relative _ rest =>
      rw [List.forall_mem_cons] at neat
      obtain ⟨first, shownFirst, isSeen, isPlain⟩ := Step.Neat.plain neat.1
      obtain ⟨others, shownRest, areSeen, arePlain⟩ := rest.plain neat.2
      refine ⟨.steps none first others, .relative shownFirst shownRest, ?_, ?_⟩
      · rw [List.flatMap_cons, Token.seen_append, ← areSeen, PathPart.kept, ← isSeen]
        rfl
      · exact Grammar.Path.forall_mem_allSteps.mpr ⟨isPlain, arePlain⟩
  | @absolute _ separator _ _ _ _ same _ rest =>
      rw [List.forall_mem_cons, List.forall_mem_cons] at neat
      obtain ⟨separates, neatFirst, neatRest⟩ := neat
      obtain ⟨first, shownFirst, isSeen, isPlain⟩ := Step.Neat.plain neatFirst
      obtain ⟨others, shownRest, areSeen, arePlain⟩ := rest.plain neatRest
      refine ⟨.steps (some separator) first others, .absolute same shownFirst shownRest, ?_, ?_⟩
      · rw [List.flatMap_cons, List.flatMap_cons, Token.seen_append, Token.seen_append,
          seen_separator separates, same, ← areSeen, PathPart.kept, ← isSeen]
        rfl
      · exact Grammar.Path.forall_mem_allSteps.mpr ⟨isPlain, arePlain⟩

theorem allSteps_predicates {path : Grammar.Path}
    (plain : ∀ step ∈ path.allSteps, step.predicates = []) : path.predicates = [] := by
  cases path with
  | root => rfl
  | steps leading first later =>
      rw [Grammar.Path.forall_mem_allSteps] at plain
      rw [Grammar.Path.predicates, plain.1, List.nil_append, List.flatMap_eq_nil_iff]
      exact plain.2

/-! ## Depth -/

theorem Step.Shows.nesting_eq {step other : Step} {derived : Grammar.Step}
    (shown : step.Shows derived) (otherShown : other.Shows derived)
    (plain : derived.predicates = []) : nestingOf step.elements = nestingOf other.elements := by
  have isPlain : ∀ {one : Step}, one.Shows derived → one.predicates = [] := by
    intro one shown
    rw [← List.length_eq_zero_iff, shown.predicates, plain]
    rfl
  simp [Step.elements, Step.element, NodeKind.isGroup, isPlain shown, isPlain otherShown,
    shown.body.nesting_eq otherShown.body]

theorem LaterShow.nesting_eq {parts others : List PathPart} {later : List LaterStep}
    (shown : LaterShow parts later) (otherShown : LaterShow others later)
    (plain : ∀ pair ∈ later, pair.2.predicates = []) :
    nestingOf (parts.flatMap PathPart.elements) =
      nestingOf (others.flatMap PathPart.elements) := by
  induction shown generalizing others with
  | nil =>
      cases otherShown
      rfl
  | cons _ first _ ih =>
      rw [List.forall_mem_cons] at plain
      cases otherShown with
      | cons _ otherFirst otherRest =>
          simp [PathPart.elements, first.nesting_eq otherFirst plain.1, ih otherRest plain.2]

/-- Two trees of one derivation without predicates nest equally deep. -/
theorem PartsShow.nesting_eq {parts others : List PathPart} {derived : Grammar.Path}
    (shown : PartsShow parts derived) (otherShown : PartsShow others derived)
    (plain : ∀ step ∈ derived.allSteps, step.predicates = []) :
    nestingOf (parts.flatMap PathPart.elements) =
      nestingOf (others.flatMap PathPart.elements) := by
  cases shown with
  | root =>
      cases otherShown
      simp [PathPart.elements]
  | relative first rest =>
      rw [Grammar.Path.forall_mem_allSteps] at plain
      cases otherShown with
      | relative otherFirst otherRest =>
          simp [PathPart.elements, first.nesting_eq otherFirst plain.1,
            rest.nesting_eq otherRest plain.2]
  | absolute _ first rest =>
      rw [Grammar.Path.forall_mem_allSteps] at plain
      cases otherShown with
      | absolute _ otherFirst otherRest =>
          simp [PathPart.elements, first.nesting_eq otherFirst plain.1,
            rest.nesting_eq otherRest plain.2]

theorem nesting_plain (parts : List PathPart) :
    nestingOf ((parts.map PathPart.plain).flatMap PathPart.elements) ≤
      nestingOf (parts.flatMap PathPart.elements) := by
  induction parts with
  | nil => exact Nat.le_refl _
  | cons part parts ih =>
      rw [List.map_cons, List.flatMap_cons, List.flatMap_cons, nestingOf_append, nestingOf_append]
      have first := part.nesting_plain
      omega

end Tree

end PathCover
