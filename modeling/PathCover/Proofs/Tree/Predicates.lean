import PathCover.Proofs.Grammar.Accepts
import PathCover.Proofs.Tree.Admission
import PathCover.Proofs.Tree.Plain

/-!
# Predicates are what is ignored

A predicate has no meaning.  All that is reported of a valid text is a warning for each predicate of
its steps, and the text without the predicates is valid, gives nothing to report and stands for the
same path.
-/

namespace PathCover

namespace Tree

open Element
open Token (Spliced)

/-! ## The predicates of a tree -/

namespace Element

/-- Whether an element is the node of a predicate. -/
def isPredicate (element : Element) : Bool := element.nodeKind? = some .predicate

/-- The predicates that stand directly in the steps of an element, from left to right. -/
def stepPredicates (element : Element) : List Element :=
  (stepsOf [element]).flatMap fun step => step.children.filter isPredicate

end Element

/-- The predicates of a part of a path. -/
def PathPart.predicates : PathPart → List Predicate
  | .separator _ => []
  | .step part => part.predicates

theorem PathPart.stretches_eq (part : PathPart) :
    part.stretches = part.predicates.map fun predicate => predicate.element.span := by
  cases part <;> rfl

@[simp] theorem filter_blankElements (blanks : List Token) :
    (blankElements blanks).filter isPredicate = [] := by
  simp [blankElements, isPredicate, nodeKind?]

@[simp] theorem Leaf.filter_elements (leaf : Leaf) : leaf.elements.filter isPredicate = [] := by
  simp [Leaf.elements, isPredicate, nodeKind?]

theorem NodeTest.filter_elements (test : NodeTest) : test.elements.filter isPredicate = [] := by
  cases test <;>
    simp [NodeTest.elements, NameTest.elements, NameTest.element, KindTest.elements,
      KindTest.element, isPredicate, nodeKind?]

theorem StepBody.filter_elements (body : StepBody) : body.elements.filter isPredicate = [] := by
  cases body with
  | abbreviated sign => simp [StepBody.elements]
  | tested axis test =>
      rw [StepBody.elements, List.filter_append, List.append_eq_nil_iff]
      constructor
      · rcases axis with _ | axis
        · rfl
        · cases axis <;> simp [optionElements, AxisMark.elements, isPredicate, nodeKind?]
      · cases test with
        | none => rfl
        | some test => exact test.filter_elements

/-- The predicates among the children of a step are those of the step. -/
theorem Step.filter_children (step : Step) :
    step.element.children.filter isPredicate = step.predicates.map Predicate.element := by
  have predicates : ∀ found : List Predicate,
      (found.flatMap Predicate.elements).filter isPredicate = found.map Predicate.element := by
    intro found
    induction found with
    | nil => rfl
    | cons predicate rest ih =>
        have isOne : isPredicate predicate.element = true := rfl
        rw [List.flatMap_cons, List.filter_append, ih, Predicate.elements, List.filter_append,
          filter_blankElements, List.filter_cons_of_pos isOne]
        rfl
  rw [Step.element, children, List.filter_append, step.body.filter_elements, predicates,
    List.nil_append]

theorem Root.stepPredicates_element (root : Root) :
    root.element.stepPredicates =
      (root.parts.flatMap PathPart.predicates).map Predicate.element := by
  rw [stepPredicates, Root.stepsOf_element]
  induction root.parts with
  | nil => rfl
  | cons part parts ih =>
      cases part with
      | separator leaf => exact ih
      | step step =>
          rw [List.flatMap_cons, List.map_append, ← ih]
          simp [PathPart.step?, Step.filter_children, PathPart.predicates]

/-! ## What is reported -/

/-- A reader that has reported nothing has the report that it started with. -/
theorem Moves.report_eq {first second : Reader} (moves : Moves first second)
    (silent : second.reported = none) : second.report = first.report := by
  induction moves with
  | done => rfl
  | look _ ih => exact ih silent
  | advance _ _ ih => simpa using ih (by simpa using silent)
  | exceed _ _ ih => exact ih silent
  | placeBlanks _ ih => simpa using ih (by simpa using silent)
  | note => cases silent

theorem LaterShow.report_ignored {parts : List PathPart} {later : List Grammar.LaterStep}
    {path : PathCover.Path} (shown : LaterShow parts later)
    (denotes : Grammar.LaterDenote later path) :
    parts.flatMap PathPart.report =
      (parts.flatMap PathPart.predicates).map Predicate.ignored := by
  induction denotes generalizing parts with
  | nil =>
      cases shown
      rfl
  | cons separator first _ ih =>
      cases shown with
      | cons same shown rest =>
          simp only [List.flatMap_cons, shown.report_eq first, ih rest, List.map_append]
          rfl

/-- What is reported of parts with a meaning are their predicates. -/
theorem PartsShow.report_ignored {parts : List PathPart} {derived : Grammar.Path}
    {path : PathCover.Path} (shown : PartsShow parts derived) (denotes : derived.Denotes path) :
    parts.flatMap PathPart.report =
      (parts.flatMap PathPart.predicates).map Predicate.ignored := by
  cases denotes with
  | root =>
      cases shown
      rfl
  | steps leading first rest =>
      cases shown with
      | relative shown shownRest =>
          simp only [List.flatMap_cons, shown.report_eq first, shownRest.report_ignored rest,
            List.map_append]
          rfl
      | absolute same shown shownRest =>
          simp only [List.flatMap_cons, shown.report_eq first, shownRest.report_ignored rest,
            List.map_append]
          rfl

/-! ## Depth -/

/-- The groups of a text are those of the parts of its path. -/
theorem Root.nesting_parts (root : Root) :
    root.element.nesting = nestingOf (root.parts.flatMap PathPart.elements) := by
  obtain ⟨path, surplus, trail⟩ := root
  rw [Root.nesting_element]
  cases path with
  | none => rfl
  | some path => simp [optionElements, Path.elements, Root.parts, NodeKind.isGroup]

/-- A text nests as deep as any tree of what it derives from, if that has no predicates. -/
theorem nesting_of_derives {text : String} {derived : Grammar.Path}
    (derives : derived.lexemes = Token.significant text)
    (plain : ∀ step ∈ derived.allSteps, step.predicates = []) {parts : List PathPart}
    (shown : PartsShow parts derived) :
    nesting text = nestingOf (parts.flatMap PathPart.elements) := by
  obtain ⟨-, given, isPath, givenShown⟩ := readText_complete derives
  rw [nesting, Root.nesting_parts, Root.parts, isPath]
  exact givenShown.nesting_eq shown plain

/-! ## The tokens of a text -/

/-- The tokens of a text that is read cleanly, without the stretches of its predicates, are those of
a derivation that its tree without predicates shows. -/
theorem readText_spliced {limits : Limits} {text : String}
    (clean : (readText limits text).2.Clean) :
    ∃ (plain : Grammar.Path) (kept : List Token),
      PartsShow ((readText limits text).1.parts.map PathPart.plain) plain ∧
      (∀ step ∈ plain.allSteps, step.predicates = []) ∧
      Spliced (Token.lex text) ((readText limits text).1.parts.flatMap PathPart.stretches) kept ∧
      (∀ token ∈ kept, token.Stands) ∧ plain.lexemes = Token.seen kept := by
  have ran : readText limits text = ((readText limits text).1, (readText limits text).2) := rfl
  have spaced := Reader.spaced_ofText limits text
  obtain ⟨noSurplus, given, derived, isPath, shown, -⟩ := root_sound ran clean
  obtain ⟨neatPath, blank⟩ := root_neat ran clean spaced
  have neat := neatPath given isPath
  obtain ⟨plain, shownPlain, derives, isPlain⟩ := shown.plain neat.parts
  have leaves : (readText limits text).1.element.leaves = Token.lex text :=
    (lossless_root _ spaced.visible clean.within).1.trans (Reader.tokens_ofText limits text)
  have tokens : Token.lex text = given.lead ++
      (leavesOf (given.parts.flatMap PathPart.elements) ++ (readText limits text).1.trail) := by
    rw [← leaves, Root.element, noSurplus, isPath]
    simp [optionElements, Path.elements]
  have spliced := (shown.spliced neat.parts blank).front (neat.lead.ne rfl)
  rw [← tokens] at spliced
  have parts : (readText limits text).1.parts = given.parts := by
    rw [Root.parts, isPath]
  rw [parts]
  refine ⟨plain, _, shownPlain, isPlain, spliced, ?_, ?_⟩
  · rw [List.forall_mem_append, List.forall_mem_append]
    refine ⟨fun token member => .inl (neat.lead token member), ?_, fun token member =>
      .inl (blank token member)⟩
    intro token member
    obtain ⟨part, isPart, isKept⟩ := List.mem_flatMap.mp member
    exact (neat.parts part isPart).stand token isKept
  · rw [Token.seen_append, Token.seen_append, Token.seen_eq_nil neat.lead,
      Token.seen_eq_nil blank, List.nil_append, List.append_nil, derives]

end Tree

namespace ParsedPath

variable {limits : Tree.Limits} {text : String} {parsed : ParsedPath}

/-- Nothing is reported of the way in which a valid text is written. -/
theorem report_eq_root (isParsed : parse limits text = .ok parsed)
    (valid : parsed.isValid = true) : parsed.report = parsed.root.report := by
  have clean := clean_of_parse isParsed valid
  have moves := Tree.moves_root ((Token.significant text).length + 1) (.ofText limits text)
  have silent : (Tree.readText limits text).2.report = [] := moves.report_eq clean.silent
  obtain ⟨-, -, rfl⟩ := parse_eq_read.mp isParsed
  rw [ofParsed, silent, List.nil_append]

/-- What is reported of a valid text are the predicates of its steps. -/
theorem report_eq_ignored (isParsed : parse limits text = .ok parsed)
    (valid : parsed.isValid = true) :
    parsed.report =
      (parsed.root.parts.flatMap Tree.PathPart.predicates).map Tree.Predicate.ignored := by
  obtain ⟨derived, -, shown, denotes⟩ := shown_of_parse isParsed valid
  rw [report_eq_root isParsed valid]
  exact shown.report_ignored denotes

/-- The predicates of a valid text lie behind each other. -/
theorem stretches_ordered (isParsed : parse limits text = .ok parsed)
    (valid : parsed.isValid = true) :
    (parsed.root.parts.flatMap Tree.PathPart.stretches).Pairwise (·.stop ≤ ·.start) := by
  obtain ⟨_, _, -, -, spliced, -⟩ := Tree.readText_spliced (clean_of_parse isParsed valid)
  rw [(root_eq_readText isParsed).1]
  exact (spliced.ordered (Token.tile_place 0 _)).2

/-- The text without the predicates of its steps has the tokens of a derivation without predicates
that denotes the same path. -/
theorem derives_without (isParsed : parse limits text = .ok parsed)
    (valid : parsed.isValid = true) :
    ∃ plain : Grammar.Path,
      plain.lexemes = Token.significant
        (Text.without (parsed.root.parts.flatMap Tree.PathPart.stretches) text) ∧
      plain.Denotes parsed.path ∧
      Tree.PartsShow (parsed.root.parts.map Tree.PathPart.plain) plain ∧
      (∀ step ∈ plain.allSteps, step.predicates = []) ∧
      plain.lexemes.length ≤ (Token.significant text).length := by
  obtain ⟨plain, kept, shown, isPlain, spliced, stand, derives⟩ :=
    Tree.readText_spliced (clean_of_parse isParsed valid)
  rw [← (root_eq_readText isParsed).1] at shown spliced
  have harmless : ∀ diagnostic ∈ parsed.root.report, diagnostic.isError = false := by
    intro diagnostic member
    rw [← report_eq_root isParsed valid] at member
    exact Report.hasErrors_eq_false.mp (Bool.not_eq_true' _ |>.mp valid) diagnostic member
  obtain ⟨path, denotes⟩ := shown.denotes fun diagnostic member => by
    obtain ⟨_, isPart, isReported⟩ := List.mem_flatMap.mp member
    obtain ⟨part, isGiven, rfl⟩ := List.mem_map.mp isPart
    apply harmless diagnostic
    exact List.mem_flatMap.mpr ⟨part, isGiven, part.report_plain isReported⟩
  have samePath : parsed.path = path := by
    obtain ⟨-, -, rfl⟩ := parse_eq_read.mp isParsed
    rw [ofParsed, Tree.Root.meaning, ← Tree.meaningOfParts_plain]
    exact shown.meaning_eq denotes
  refine ⟨plain, ?_, ?_, shown, isPlain, ?_⟩
  · rw [spliced.significant_without stand, derives]
  · rw [samePath]
    exact denotes
  · rw [derives]
    exact spliced.length_seen_le

/-- The text without the predicates of its steps is valid, with nothing to report, and stands for
the same path. -/
theorem parse_without (isParsed : parse limits text = .ok parsed)
    (valid : parsed.isValid = true) :
    ∃ rest, parse limits
        (Text.without (parsed.root.parts.flatMap Tree.PathPart.stretches) text) = .ok rest ∧
      rest.isValid = true ∧ rest.report = [] ∧ rest.path = parsed.path := by
  obtain ⟨plain, derives, denotes, shown, isPlain, fewer⟩ := derives_without isParsed valid
  obtain ⟨free, isFree, samePath, ignored, noIgnored, report⟩ := parse_of_denotes derives denotes
  obtain rfl : ignored = [] := by
    rw [← List.length_eq_zero_iff, noIgnored, Tree.allSteps_predicates isPlain]
    rfl
  obtain ⟨admitted, whole, isWhole, isCounted⟩ := parse_eq_counted.mp isParsed
  have admits : limits.Admits
      (Text.without (parsed.root.parts.flatMap Tree.PathPart.stretches) text) := by
    constructor
    · rw [← derives]
      exact admitted.tokens.mono fewer
    · apply admitted.depth.mono
      rw [Tree.nesting_of_derives derives isPlain shown, ← nesting_eq isWhole,
        Tree.Root.nesting_parts]
      have sameRoot : parsed.root = whole.root := by
        rw [isCounted]
        rfl
      rw [sameRoot]
      exact Tree.nesting_plain _
  refine ⟨free.counted limits, parse_eq_counted.mpr ⟨admits, free, isFree, rfl⟩, ?_, report,
    samePath⟩
  rw [isValid, counted, report]
  rfl

/-- Predicates are what is ignored.  All that is reported of a valid text is one warning for each
predicate directly in a step, over that predicate, in the order in which they stand; and the text
without these predicates is valid, with nothing to report, and stands for the same path. -/
theorem predicates_ignored (isParsed : parse limits text = .ok parsed)
    (valid : parsed.isValid = true) :
    parsed.report.map (fun found => (found.severity, found.kind, found.span)) =
        parsed.root.element.stepPredicates.map
          (fun node => (.warning, .predicateIgnored, node.span)) ∧
      (parsed.root.element.stepPredicates.map Tree.Element.span).Pairwise
        (fun first second => first.stop ≤ second.start) ∧
      ∃ rest, parse limits
          (Text.without (parsed.root.element.stepPredicates.map Tree.Element.span) text) =
            .ok rest ∧
        rest.isValid = true ∧ rest.report = [] ∧ rest.path = parsed.path := by
  have stretches : parsed.root.element.stepPredicates.map Tree.Element.span =
      parsed.root.parts.flatMap Tree.PathPart.stretches := by
    rw [Tree.Root.stepPredicates_element, List.map_map, List.map_flatMap]
    exact List.flatMap_congr fun part _ => part.stretches_eq.symm
  refine ⟨?_, ?_, ?_⟩
  · rw [report_eq_ignored isParsed valid, Tree.Root.stepPredicates_element, List.map_map,
      List.map_map]
    rfl
  · rw [stretches]
    exact stretches_ordered isParsed valid
  · rw [stretches]
    exact parse_without isParsed valid

/-- Predicates that hold brackets in a string, predicates and garbage, between blanks. -/
theorem predicates_ignored_nested :
    ∃ parsed, parse .standard "/a[b[']'] # ]/@c [1] [\"//\"]//text()" = .ok parsed ∧
      parsed.isValid = true ∧
      parsed.report.map (fun found => (found.severity, found.kind, found.span)) =
        [(.warning, .predicateIgnored, ⟨2, 13⟩), (.warning, .predicateIgnored, ⟨17, 20⟩),
          (.warning, .predicateIgnored, ⟨21, 27⟩)] ∧
      ∃ rest, parse .standard "/a/@c  //text()" = .ok rest ∧
        rest.report = [] ∧ rest.path = parsed.path := by
  obtain ⟨parsed, isParsed, found⟩ := exists_of_toOption
    (by decide +kernel :
      (parse .standard "/a[b[']'] # ]/@c [1] [\"//\"]//text()").toOption.map
        (fun parsed => (parsed.isValid, parsed.root.element.stepPredicates.map Tree.Element.span)) =
          some (true, [⟨2, 13⟩, ⟨17, 20⟩, ⟨21, 27⟩]))
  obtain ⟨valid, spans⟩ := Prod.mk.inj found
  obtain ⟨report, -, rest, isRest, -, silent, samePath⟩ := predicates_ignored isParsed valid
  refine ⟨parsed, isParsed, valid, ?_, rest, ?_, silent, samePath⟩
  · have warnings := congrArg (List.map fun span =>
      (Severity.warning, DiagnosticKind.predicateIgnored, span)) spans
    rw [List.map_map] at warnings
    exact report.trans warnings
  · have left : Text.without [⟨2, 13⟩, ⟨17, 20⟩, ⟨21, 27⟩]
        "/a[b[']'] # ]/@c [1] [\"//\"]//text()" = "/a/@c  //text()" := by decide +kernel
    rw [← left, ← spans]
    exact isRest

end ParsedPath

end PathCover
