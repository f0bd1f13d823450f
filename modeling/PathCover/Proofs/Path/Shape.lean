import PathCover.Proofs.Grammar.Accepts
import PathCover.Proofs.Tree.Nodes

/-!
# The shape of paths that texts stand for

The path of a valid text has one axis step for each step of the text and a separator exactly where
one is called for: in front, where the text starts with one, and as `//` wherever that stands
between two steps.  A step that means nothing is left out of the path, but never without an error.
-/

namespace PathCover

/-- The token that writes a separator. -/
def Depth.tokenKind : Depth → TokenKind
  | .child => .slash
  | .descendantOrSelf => .doubleSlash

theorem Depth.isSeparator_tokenKind (depth : Depth) : depth.tokenKind.isSeparator = true := by
  cases depth <;> rfl

theorem Depth.tokenKind_inj {depth other : Depth} :
    depth.tokenKind = other.tokenKind ↔ depth = other := by
  cases depth <;> cases other <;> simp [tokenKind]

theorem Grammar.Separator.kind_eq (separator : Grammar.Separator) :
    separator.lexeme.kind = separator.depth.tokenKind := by
  have isSeparator := separator.admits
  rw [depth, Terminal.kind]
  cases given : separator.lexeme.kind <;> rw [given] at isSeparator <;>
    first | rfl | cases isSeparator

/-- No name of a test is `*` alone, and a document holds a test for elements. -/
def KindTest.Proper : KindTest → Prop
  | .element name _ | .attribute name _ => name ≠ some .wildcard
  | .schemaElement name | .schemaAttribute name => name ≠ .wildcard
  | .documentOf inner => Grammar.isElementTest inner = true ∧ inner.Proper
  | _ => True

/-- A path whose separators all bear on coverage: none stands beside another, none at the end but in
the path of the root, and `/` nowhere but in front. -/
structure Path.Tight (path : Path) : Prop where
  apart : path.IsChain fun step next => step.isSeparator = false ∨ next.isSeparator = false
  last : ∀ depth, path.getLast? = some (.separator depth) → path = [.separator .child]
  interior : ∀ depth, .separator depth ∈ path.tail → depth = .descendantOrSelf

/-! ## Parts of a text and what they stand for -/

namespace Tree

/-- Separators and steps behind a first step, and the path that they stand for: the axis step of
each step, and `//` in front of those that it stands in front of. -/
inductive LaterStand : List PathPart → PathCover.Path → Prop where
  | nil : LaterStand [] []
  | child {slash : Leaf} {step : Step} {meaning : AxisStep} {parts : List PathPart}
      {path : PathCover.Path} (isSlash : slash.kind = .slash)
      (means : step.body.meaning = .ok meaning) (rest : LaterStand parts path) :
      LaterStand (.separator slash :: .step step :: parts) (.axis meaning :: path)
  | descendant {slashes : Leaf} {step : Step} {meaning : AxisStep} {parts : List PathPart}
      {path : PathCover.Path} (isDoubleSlash : slashes.kind = .doubleSlash)
      (means : step.body.meaning = .ok meaning) (rest : LaterStand parts path) :
      LaterStand (.separator slashes :: .step step :: parts)
        (.separator .descendantOrSelf :: .axis meaning :: path)

/-- The parts of a text and the path that they stand for. -/
inductive PartsStand : List PathPart → PathCover.Path → Prop where
  | root {slash : Leaf} (isSlash : slash.kind = .slash) :
      PartsStand [.separator slash] [.separator .child]
  | relative {step : Step} {meaning : AxisStep} {parts : List PathPart} {path : PathCover.Path}
      (means : step.body.meaning = .ok meaning) (rest : LaterStand parts path) :
      PartsStand (.step step :: parts) (.axis meaning :: path)
  | absolute {depth : Depth} {separator : Leaf} {step : Step} {meaning : AxisStep}
      {parts : List PathPart} {path : PathCover.Path}
      (isSeparator : separator.kind = depth.tokenKind)
      (means : step.body.meaning = .ok meaning) (rest : LaterStand parts path) :
      PartsStand (.separator separator :: .step step :: parts)
        (.separator depth :: .axis meaning :: path)

/-- A step node and the axis step that it stands for. -/
def StepStands (node : Element) (meaning : AxisStep) : Prop :=
  ∃ step : Step, node = step.element ∧ step.body.meaning = .ok meaning

theorem Leaf.kind_of_separator {leaf : Leaf} {separator : Grammar.Separator}
    (same : leaf.lexeme = separator.lexeme) : leaf.kind = separator.depth.tokenKind :=
  (congrArg Token.Lexeme.kind same).trans separator.kind_eq

theorem LaterShow.stand {parts : List PathPart} {later : List Grammar.LaterStep}
    {path : PathCover.Path} (shown : LaterShow parts later)
    (denotes : Grammar.LaterDenote later path) : LaterStand parts path := by
  induction denotes generalizing parts with
  | nil =>
      cases shown
      exact .nil
  | cons separator first _ ih =>
      cases shown with
      | cons same shown rest =>
          have kind := Leaf.kind_of_separator same
          have means := shown.body.decides.eq_ok first
          rw [Grammar.Separator.interior]
          cases depth : separator.depth <;> rw [depth] at kind
          · exact .child kind means (ih rest)
          · exact .descendant kind means (ih rest)

theorem PartsShow.stand {parts : List PathPart} {derived : Grammar.Path} {path : PathCover.Path}
    (shown : PartsShow parts derived) (denotes : derived.Denotes path) : PartsStand parts path := by
  cases denotes with
  | root slash =>
      cases shown with
      | root same => exact .root (Leaf.kind_of_sign same)
  | steps leading first rest =>
      cases shown with
      | relative shown shownRest =>
          exact .relative (shown.body.decides.eq_ok first) (shownRest.stand rest)
      | absolute same shown shownRest =>
          exact .absolute (Leaf.kind_of_separator same) (shown.body.decides.eq_ok first)
            (shownRest.stand rest)

namespace LaterStand

variable {parts : List PathPart} {path : PathCover.Path}

theorem steps (stand : LaterStand parts path) :
    List.Forall₂ (fun step meaning => step.body.meaning = .ok meaning)
      (parts.filterMap PathPart.step?) (path.filterMap PathCover.Step.axisStep?) := by
  induction stand with
  | nil => exact .nil
  | child _ means _ ih => exact .cons means ih
  | descendant _ means _ ih => exact .cons means ih

theorem apart (stand : LaterStand parts path) (meaning : AxisStep) :
    List.IsChain (fun step next => step.isSeparator = false ∨ next.isSeparator = false)
      (.axis meaning :: path) := by
  induction stand generalizing meaning with
  | nil => exact .singleton _
  | child _ _ _ ih => exact .cons_cons (.inl rfl) (ih _)
  | descendant _ _ _ ih => exact .cons_cons (.inl rfl) (.cons_cons (.inr rfl) (ih _))

theorem last (stand : LaterStand parts path) (meaning : AxisStep) (depth : Depth) :
    (PathCover.Step.axis meaning :: path).getLast? ≠ some (.separator depth) := by
  induction stand generalizing meaning with
  | nil => simp
  | child _ _ _ ih =>
      rw [List.getLast?_cons_cons]
      exact ih _
  | descendant _ _ _ ih =>
      rw [List.getLast?_cons_cons, List.getLast?_cons_cons]
      exact ih _

theorem interior (stand : LaterStand parts path) {depth : Depth}
    (member : PathCover.Step.separator depth ∈ path) : depth = .descendantOrSelf := by
  induction stand with
  | nil => cases member
  | child _ _ _ ih => exact ih (by simpa using member)
  | descendant _ _ _ ih =>
      rcases List.mem_cons.mp member with same | member
      · cases same
        rfl
      · exact ih (by simpa using member)

end LaterStand

namespace PartsStand

variable {parts : List PathPart} {path : PathCover.Path}

theorem steps (stand : PartsStand parts path) :
    List.Forall₂ (fun step meaning => step.body.meaning = .ok meaning)
      (parts.filterMap PathPart.step?) (path.filterMap PathCover.Step.axisStep?) := by
  cases stand with
  | root => exact .nil
  | relative means rest => exact .cons means rest.steps
  | absolute _ means rest => exact .cons means rest.steps

theorem tight (stand : PartsStand parts path) : path.Tight := by
  cases stand with
  | root => exact ⟨.singleton _, fun _ _ => rfl, by simp⟩
  | relative _ rest =>
      refine ⟨rest.apart _, fun depth isLast => absurd isLast (rest.last _ depth), ?_⟩
      exact fun depth member => rest.interior member
  | @absolute depth _ _ meaning _ _ _ _ rest =>
      refine ⟨.cons_cons (.inr rfl) (rest.apart _), ?_, ?_⟩
      · intro depth isLast
        rw [List.getLast?_cons_cons] at isLast
        exact absurd isLast (rest.last _ depth)
      · intro depth member
        exact rest.interior (by simpa using member)

end PartsStand

theorem unlessWildcard_ne (name : QName) : unlessWildcard name ≠ some .wildcard := by
  unfold unlessWildcard
  split
  · simp
  · simpa using ‹_›

end Tree

/-! ## Derivations and what they denote -/

namespace Grammar

theorem NameAndType.proper {arguments : List Argument} {name typeName : Option QName}
    (given : NameAndType arguments name typeName) : name ≠ some .wildcard := by
  cases given with
  | nothing => simp
  | name | typed | nillable => exact Tree.unlessWildcard_ne _

theorem DeclaredName.proper {arguments : List Argument} {name : QName}
    (given : DeclaredName arguments name) : name ≠ .wildcard := by
  cases given with
  | name _ concrete => exact concrete

theorem KindTest.Denotes.proper {test : KindTest} {kind : PathCover.KindTest}
    (denotes : test.Denotes kind) : kind.Proper := by
  induction denotes with
  | element _ given | «attribute» _ given => exact given.proper
  | schemaElement _ given | schemaAttribute _ given => exact given.proper
  | documentOf _ _ _ elements ih => exact ⟨elements, ih⟩
  | anyKind | text | comment | processingInstruction | document => trivial

theorem NodeTest.Denotes.proper {test : NodeTest} {kind : PathCover.KindTest}
    (denotes : test.Denotes (.kind kind)) : kind.Proper := by
  cases denotes with
  | kind meaning => exact meaning.proper

theorem Step.Denotes.proper {step : Step} {meaning : AxisStep} (denotes : step.Denotes meaning) :
    ∀ kind, meaning.test = .kind kind → kind.Proper := by
  intro kind isKind
  obtain ⟨body, predicates⟩ := step
  cases denotes <;> cases isKind
  case self | parent => trivial
  all_goals exact NodeTest.Denotes.proper ‹_›

theorem Path.Denotes.proper {derived : Path} {path : PathCover.Path}
    (denotes : derived.Denotes path) (meaning : AxisStep) (member : .axis meaning ∈ path) :
    ∀ kind, meaning.test = .kind kind → kind.Proper := by
  obtain ⟨step, denotesStep, -⟩ := denotes.exists_step member
  exact denotesStep.proper

/-- The tokens of a step start with one that can start a step, and so with no separator. -/
theorem Step.head_lexemes (step : Step) :
    ∃ first ∈ step.lexemes.head?, first.kind.isSeparator = false := by
  obtain ⟨first, others, split, starts⟩ := Tree.lexemes_step step []
  rw [List.append_nil] at split
  refine ⟨first, by rw [split]; rfl, ?_⟩
  cases given : first.kind <;> rw [given] at starts <;> first | rfl | cases starts

/-- Where a path starts with a separator, its tokens start with the token that writes it. -/
theorem Path.Denotes.leading {derived : Path} {path : PathCover.Path}
    (denotes : derived.Denotes path) (depth : Depth) :
    path.head? = some (.separator depth) ↔
      ∃ first ∈ derived.lexemes.head?, first.kind = depth.tokenKind := by
  cases denotes with
  | root slash =>
      have isSlash : slash.lexeme.kind = Depth.child.tokenKind := slash.kind_eq
      simp [Path.lexemes, isSlash, Depth.tokenKind_inj]
  | @steps step _ _ _ leading =>
      cases leading with
      | some separator => simp [Path.lexemes, separator.kind_eq, Depth.tokenKind_inj]
      | none =>
          obtain ⟨first, isFirst, noSeparator⟩ := step.head_lexemes
          obtain ⟨others, split⟩ := List.head?_eq_some_iff.mp isFirst
          have other : first.kind ≠ depth.tokenKind := fun same => by
            rw [same, depth.isSeparator_tokenKind] at noSeparator
            cases noSeparator
          simp [Path.lexemes, split, other]

/-- A path is absolute if its tokens are a separator and more. -/
theorem Path.Denotes.absolute {derived : Path} {path : PathCover.Path}
    (denotes : derived.Denotes path) :
    path.isAbsolute = true ↔
      (∃ first ∈ derived.lexemes.head?, first.kind.isSeparator = true) ∧
        1 < derived.lexemes.length := by
  cases denotes with
  | root slash => simp [Path.lexemes, PathCover.Path.isAbsolute]
  | @steps step _ _ _ leading =>
      obtain ⟨first, isFirst, noSeparator⟩ := step.head_lexemes
      obtain ⟨others, split⟩ := List.head?_eq_some_iff.mp isFirst
      cases leading with
      | some separator =>
          simp [Path.lexemes, PathCover.Path.isAbsolute, split, separator.admits]
      | none => simp [Path.lexemes, PathCover.Path.isAbsolute, split, noSeparator]

end Grammar

namespace ParsedPath

variable {limits : Tree.Limits} {text : String} {parsed : ParsedPath}

/-- The path of a valid text has one axis step for each step of the text, in order, and a separator
exactly where one is called for; it is absolute if the text starts with a separator and is not that
separator alone, and its kind tests are proper. -/
theorem path_stands (isParsed : parse limits text = .ok parsed) (valid : parsed.isValid = true) :
    List.Forall₂ Tree.StepStands (Tree.Element.stepsOf [parsed.root.element])
        (parsed.path.filterMap Step.axisStep?) ∧
      Tree.PartsStand parsed.root.parts parsed.path ∧
      (∀ depth, parsed.path.head? = some (.separator depth) ↔
        ∃ first ∈ (Token.significant text).head?, first.kind = depth.tokenKind) ∧
      parsed.path.Tight ∧
      (parsed.path.isAbsolute = true ↔
        (∃ first ∈ (Token.significant text).head?, first.kind.isSeparator = true) ∧
          1 < (Token.significant text).length) ∧
      ∀ meaning, .axis meaning ∈ parsed.path → ∀ kind, meaning.test = .kind kind → kind.Proper := by
  obtain ⟨derived, derives, shown, denotes⟩ := shown_of_parse isParsed valid
  have stand := shown.stand denotes
  rw [← derives]
  refine ⟨?_, stand, denotes.leading, stand.tight, denotes.absolute, denotes.proper⟩
  rw [Tree.Root.stepsOf_element, List.forall₂_map_left_iff]
  exact stand.steps.imp fun step meaning means => ⟨step, rfl, means⟩

theorem path_stands_skipping :
    ∃ parsed, parse .standard "// tei:p / @n // element(*, t)" = .ok parsed ∧
      (Tree.Element.stepsOf [parsed.root.element]).length = 3 ∧ parsed.path.Tight ∧
      parsed.path.head? = some (.separator .descendantOrSelf) ∧
      parsed.path.isAbsolute = true := by
  obtain ⟨parsed, isParsed, valid⟩ := exists_of_toOption
    (by decide +kernel :
      (parse .standard "// tei:p / @n // element(*, t)").toOption.map
        (fun parsed => (parsed.isValid, (parsed.path.filterMap Step.axisStep?).length)) =
          some (true, 3))
  obtain ⟨isValid, three⟩ := Prod.mk.inj valid
  obtain ⟨steps, -, leading, tight, absolute, -⟩ := path_stands isParsed isValid
  refine ⟨parsed, isParsed, steps.length_eq.trans three, tight, ?_, ?_⟩
  · exact (leading .descendantOrSelf).mpr (by decide +kernel)
  · exact absolute.mpr (by decide +kernel)

end ParsedPath

end PathCover
