import PathCover.Proofs.Tree.Nodes

/-!
# Where meanings come from

What a tree means is made of what stands in it.  Every half of a name in a path is spelled by a
token of the tree, and a part that means nothing is refused with a diagnostic that covers a token or
a node of the tree.
-/

namespace PathCover

/-- The halves of a name. -/
def QName.parts (name : QName) : List NamePart := name.qualifier.toList ++ [name.localPart]

/-- The names in a kind test. -/
def KindTest.names : KindTest → List QName
  | .element name typeName | .attribute name typeName => name.toList ++ typeName.toList
  | .schemaElement name | .schemaAttribute name => [name]
  | .documentOf inner => inner.names
  | .anyKind | .text | .comment | .processingInstruction _ | .document => []

/-- The names in a node test. -/
def NodeTest.names : NodeTest → List QName
  | .name accepted => [accepted]
  | .kind accepted => accepted.names

namespace Tree

open Element
open Text (Span)

/-- All halves of some names have a property. -/
def Spelled (spells : NamePart → Prop) (names : List QName) : Prop :=
  ∀ name ∈ names, ∀ part ∈ name.parts, spells part

/-- A diagnostic covers a stretch that has a property, and is not about an open group. -/
def Concerns (covers : Span → Prop) (diagnostic : Diagnostic) : Prop :=
  ∃ kind span detail, kind.isStructural = false ∧ covers span ∧
    diagnostic = .plain kind span detail

/-- Some elements whose tokens spell halves of names that have one property, and whose tokens and
nodes, paths aside, cover stretches that have another. -/
structure Source (spells : NamePart → Prop) (covers : Span → Prop) (elements : List Element) :
    Prop where
  spells : ∀ token ∈ leavesOf elements, spells (namePart token)
  tokens : ∀ token ∈ leavesOf elements, covers token.span
  nodes : ∀ node ∈ nodesOf elements, node.nodeKind? ≠ some .path → covers node.span

/-- An outcome that is a value with a property, or a refusal that concerns stretches with
another. -/
def Sound {α : Type} (covers : Span → Prop) (holds : α → Prop) : Except Refusal α → Prop
  | .ok value => holds value
  | .error refusal => ∀ diagnostic ∈ refusal.report, Concerns covers diagnostic

variable {spells : NamePart → Prop} {covers : Span → Prop}

theorem Spelled.append {front rest : List QName} (isFront : Spelled spells front)
    (isRest : Spelled spells rest) : Spelled spells (front ++ rest) :=
  List.forall_mem_append.mpr ⟨isFront, isRest⟩

theorem Spelled.nil : Spelled spells [] := List.forall_mem_nil _

/-- A name that is left out where it is a wildcard is spelled no less. -/
theorem Spelled.unlessWildcard {name : QName} (spelled : Spelled spells [name]) :
    Spelled spells (unlessWildcard name).toList := by
  rw [Tree.unlessWildcard]
  split
  · exact .nil
  · exact spelled

namespace Source

variable {front rest : List Element}

theorem append_iff :
    Source spells covers (front ++ rest) ↔
      Source spells covers front ∧ Source spells covers rest := by
  constructor
  · rintro ⟨isSpelled, tokens, nodes⟩
    rw [leavesOf_append, List.forall_mem_append] at isSpelled tokens
    rw [nodesOf_append, List.forall_mem_append] at nodes
    exact ⟨⟨isSpelled.1, tokens.1, nodes.1⟩, isSpelled.2, tokens.2, nodes.2⟩
  · rintro ⟨inFront, inRest⟩
    constructor
    · rw [leavesOf_append]
      exact List.forall_mem_append.mpr ⟨inFront.spells, inRest.spells⟩
    · rw [leavesOf_append]
      exact List.forall_mem_append.mpr ⟨inFront.tokens, inRest.tokens⟩
    · rw [nodesOf_append]
      exact List.forall_mem_append.mpr ⟨inFront.nodes, inRest.nodes⟩

variable {kind : NodeKind} {start : Nat} {children : List Element}

/-- What stands in a node. -/
theorem inside (source : Source spells covers [.node kind start children]) :
    Source spells covers children where
  spells := by simpa using source.spells
  tokens := by simpa using source.tokens
  nodes node member := source.nodes node (by simp [member])

theorem node (source : Source spells covers [.node kind start children])
    (notPath : kind ≠ .path) : covers (Element.node kind start children).span :=
  source.nodes _ (by simp) (by simpa [nodeKind?] using notPath)

/-- The token of a leaf. -/
theorem leaf {leaf : Leaf} (source : Source spells covers leaf.elements) :
    spells (namePart leaf.token) ∧ covers leaf.token.span := by
  have member : leaf.token ∈ leavesOf leaf.elements := by simp [Leaf.tokens]
  exact ⟨source.spells _ member, source.tokens _ member⟩

/-- What holds of elements of several parts holds of those of each. -/
theorem of_mem_flatMap {α : Type} {elements : α → List Element} {parts : List α} {part : α}
    (source : Source spells covers (parts.flatMap elements)) (member : part ∈ parts) :
    Source spells covers (elements part) := by
  obtain ⟨before, behind, rfl⟩ := List.append_of_mem member
  rw [List.flatMap_append, List.flatMap_cons] at source
  exact (append_iff.mp (append_iff.mp source).2).1

end Source

namespace Sound

variable {α β : Type} {holds : α → Prop} {follows : β → Prop}

/-- What is done with a sound outcome is sound if it is for every value with its property. -/
theorem bind {outcome : Except Refusal α} {next : α → Except Refusal β}
    (sound : Sound covers holds outcome)
    (later : ∀ value, holds value → Sound covers follows (next value)) :
    Sound covers follows (outcome >>= next) := by
  cases outcome with
  | ok value => exact later value sound
  | error refusal => exact sound

theorem pure {value : α} (sound : holds value) :
    Sound covers holds (pure value : Except Refusal α) := sound

theorem incomplete : Sound covers holds (.error .incomplete) := List.forall_mem_nil _

theorem because {kind : DiagnosticKind} {span : Span} {detail : Option String}
    (notStructural : kind.isStructural = false) (covered : covers span) :
    Sound covers holds (.error (.because (.plain kind span detail))) :=
  List.forall_mem_singleton.mpr ⟨kind, span, detail, notStructural, covered, rfl⟩

theorem invalidArguments {span : Span} {detail : String} (covered : covers span) :
    Sound covers holds (invalidArguments span detail) :=
  because rfl covered

end Sound

/-! ## Kind tests -/

/-- An argument whose name is spelled, or a sound kind test. -/
def ArgumentMeaning.Sound (spells : NamePart → Prop) (covers : Span → Prop) :
    ArgumentMeaning → Prop
  | .name outcome => Tree.Sound covers (fun name => Spelled spells [name]) outcome
  | .kind outcome => Tree.Sound covers (fun test => Spelled spells test.names) outcome
  | .literal _ | .comma | .question => True

section Kinds

variable {keyword : Token} {span : Span} {arguments : List ArgumentMeaning}

theorem withoutArguments_sound {test : PathCover.KindTest} (covered : covers span)
    (nameless : test.names = []) :
    Sound covers (fun test => Spelled spells test.names)
      (withoutArguments keyword span test arguments) := by
  cases arguments with
  | nil =>
      show Spelled spells test.names
      rw [nameless]
      exact .nil
  | cons => exact .invalidArguments covered

theorem nameAndType_sound (covered : covers span)
    (sound : ∀ argument ∈ arguments, argument.Sound spells covers) :
    Sound covers (fun names => Spelled spells (names.1.toList ++ names.2.toList))
      (nameAndType keyword span arguments) := by
  have typed : ∀ {name typeName : Except Refusal QName},
      Sound covers (fun name => Spelled spells [name]) name →
      Sound covers (fun name => Spelled spells [name]) typeName →
      Sound covers (fun names : Option QName × Option QName =>
          Spelled spells (names.1.toList ++ names.2.toList))
        (do return (unlessWildcard (← name), some (← typeName))) :=
    fun isName isType => isName.bind fun _ spelled => isType.bind fun _ typeSpelled =>
      .pure (spelled.unlessWildcard.append typeSpelled)
  unfold nameAndType
  split
  · exact .pure (.append .nil .nil)
  · have isName := sound _ (.head _)
    exact isName.bind fun _ spelled => .pure (spelled.unlessWildcard.append .nil)
  · exact typed (sound _ (.head _)) (sound _ (.tail _ (.tail _ (.head _))))
  · exact typed (sound _ (.head _)) (sound _ (.tail _ (.tail _ (.head _))))
  · exact .invalidArguments covered

theorem declaredName_sound (covered : covers span)
    (sound : ∀ argument ∈ arguments, argument.Sound spells covers) :
    Sound covers (fun name => Spelled spells [name]) (declaredName keyword span arguments) := by
  unfold declaredName
  dsimp only
  split
  · have isName := sound _ (.head _)
    refine isName.bind fun name spelled => ?_
    have kept := spelled.unlessWildcard
    split
    · rename_i declared
      rw [declared] at kept
      exact .pure kept
    · exact .invalidArguments covered
  · exact .invalidArguments covered

theorem instructionTarget_sound (covered : covers span)
    (sound : ∀ argument ∈ arguments, argument.Sound spells covers) :
    Sound covers (fun _ => True) (instructionTarget span arguments) := by
  unfold instructionTarget
  split
  · trivial
  · have isName := sound _ (.head _)
    refine isName.bind fun name _ => ?_
    split
    · trivial
    · exact .invalidArguments covered
  · trivial
  · exact .invalidArguments covered

theorem documentTest_sound (covered : covers span)
    (sound : ∀ argument ∈ arguments, argument.Sound spells covers) :
    Sound covers (fun test => Spelled spells test.names) (documentTest span arguments) := by
  unfold documentTest
  split
  · exact Spelled.nil
  · have isTest := sound _ (.head _)
    refine isTest.bind fun test spelled => ?_
    split
    · exact .pure spelled
    · exact .pure spelled
    · exact .invalidArguments covered
  · exact .invalidArguments covered

/-- A kind test of sound arguments is sound. -/
theorem kindTestOf_sound (covered : covers span) (isKeyword : covers keyword.span)
    (sound : ∀ argument ∈ arguments, argument.Sound spells covers) :
    Sound covers (fun test => Spelled spells test.names) (kindTestOf keyword span arguments) := by
  unfold kindTestOf
  split
  · exact withoutArguments_sound covered rfl
  · exact withoutArguments_sound covered rfl
  · exact withoutArguments_sound covered rfl
  · exact (nameAndType_sound covered sound).bind fun _ spelled => .pure spelled
  · exact (nameAndType_sound covered sound).bind fun _ spelled => .pure spelled
  · exact (declaredName_sound covered sound).bind fun _ spelled => .pure spelled
  · exact (declaredName_sound covered sound).bind fun _ spelled => .pure spelled
  · exact (instructionTarget_sound covered sound).bind fun _ _ => .pure .nil
  · exact documentTest_sound covered sound
  · exact .because rfl isKeyword

end Kinds

theorem NameTest.qname_sound {test : NameTest}
    (source : Source spells covers test.elements) :
    Sound covers (fun name => Spelled spells [name]) test.qname := by
  obtain ⟨lead, first, colon, second⟩ := test
  have inside := (Source.append_iff.mp source).2.inside
  rw [Source.append_iff, Source.append_iff] at inside
  obtain ⟨⟨inFirst, -⟩, inSecond⟩ := inside
  cases colon with
  | none =>
      refine List.forall_mem_singleton.mpr ?_
      simpa [QName.parts, NameTest.qualifier] using inFirst.leaf.1
  | some colon =>
      cases second with
      | none => exact .incomplete
      | some second =>
          refine List.forall_mem_singleton.mpr ?_
          simpa [QName.parts, NameTest.qualifier] using
            And.intro inFirst.leaf.1 (Source.leaf inSecond).1

mutual

theorem Argument.meaning_sound {argument : Argument}
    (source : Source spells covers argument.elements) :
    ∀ meaning ∈ argument.meaning, meaning.Sound spells covers := by
  cases argument with
  | name test =>
      rw [Argument.meaning]
      rw [Argument.elements] at source
      exact List.forall_mem_singleton.mpr (NameTest.qname_sound source)
  | mark leaf =>
      rw [Argument.meaning]
      split <;> simp [ArgumentMeaning.Sound]
  | stray lead token => simp [Argument.meaning]
  | nested lead keyword opener arguments closer =>
      rw [Argument.meaning, List.forall_mem_singleton]
      rw [Argument.elements, Source.append_iff] at source
      have inside := source.2.inside
      simp only [Source.append_iff] at inside
      exact kindTestOf_sound (source.2.node (by decide)) inside.1.1.1.leaf.2
        (Argument.meaningOf_sound inside.1.2)

theorem Argument.meaningOf_sound {arguments : List Argument}
    (source : Source spells covers (Argument.elementsOf arguments)) :
    ∀ meaning ∈ Argument.meaningOf arguments, meaning.Sound spells covers := by
  cases arguments with
  | nil => simp [Argument.meaningOf]
  | cons argument rest =>
      rw [Argument.elementsOf, Source.append_iff] at source
      rw [Argument.meaningOf, List.forall_mem_append]
      exact ⟨Argument.meaning_sound source.1, Argument.meaningOf_sound source.2⟩

end

theorem KindTest.meaning_sound {test : KindTest}
    (source : Source spells covers test.elements) :
    Sound covers (fun test => Spelled spells test.names) test.meaning := by
  rw [KindTest.elements, Source.append_iff] at source
  have inside := source.2.inside
  simp only [Source.append_iff] at inside
  exact kindTestOf_sound (source.2.node (by decide)) inside.1.1.1.leaf.2
    (Argument.meaningOf_sound inside.1.2)

/-! ## Steps -/

theorem NodeTest.meaning_sound {test : NodeTest}
    (source : Source spells covers test.elements) :
    Sound covers (fun test => Spelled spells test.names) test.meaning := by
  cases test with
  | name test => exact (NameTest.qname_sound source).bind fun _ spelled => .pure spelled
  | kind test => exact (KindTest.meaning_sound source).bind fun _ spelled => .pure spelled

theorem axisOf_sound {name : Token} (covered : covers name.span) :
    Sound covers (fun _ => True) (axisOf name) := by
  unfold axisOf
  split
  · trivial
  · refine .because ?_ covered
    split <;> rfl

/-- The step that a body stands for has names that its tokens spell. -/
theorem StepBody.meaning_sound {body : StepBody}
    (source : Source spells covers body.elements) :
    Sound covers (fun step => Spelled spells step.test.names) body.meaning := by
  -- What is in front of a node test, and the node test.
  have parts : ∀ {axis test}, body = .tested axis test →
      Source spells covers (optionElements AxisMark.elements axis) ∧
        Source spells covers (optionElements NodeTest.elements test) := by
    rintro axis test rfl
    exact Source.append_iff.mp source
  have named : ∀ {name colons test}, body = .tested (some (.named name colons)) test →
      covers name.token.span := by
    intro name colons test isTested
    have inside := (parts isTested).1.inside
    exact (Source.append_iff.mp inside).1.leaf.2
  unfold StepBody.meaning
  split
  · exact Spelled.nil
  · exact (axisOf_sound (named rfl)).bind fun _ _ => .incomplete
  · exact .incomplete
  · exact (NodeTest.meaning_sound (parts rfl).2).bind fun _ spelled => .pure spelled
  · exact (NodeTest.meaning_sound (parts rfl).2).bind fun _ spelled => .pure spelled
  · exact (axisOf_sound (named rfl)).bind fun _ _ =>
      (NodeTest.meaning_sound (parts rfl).2).bind fun _ spelled => .pure spelled

theorem Step.body_source {step : Step} (source : Source spells covers step.elements) :
    Source spells covers step.body.elements :=
  (Source.append_iff.mp (Source.append_iff.mp source).2.inside).1

/-- What is reported about a step concerns its tokens and nodes. -/
theorem Step.report_sound {step : Step} (source : Source spells covers step.elements) :
    ∀ diagnostic ∈ step.report, Concerns covers diagnostic := by
  have inside := (Source.append_iff.mp source).2.inside
  rw [Step.report, List.forall_mem_append]
  constructor
  · rw [List.forall_mem_map]
    intro predicate member
    have own := (Source.append_iff.mp inside).2.of_mem_flatMap member
    exact ⟨_, _, _, rfl, (Source.append_iff.mp own).2.node (by decide), rfl⟩
  · have sound := StepBody.meaning_sound (Step.body_source source)
    split
    · exact List.forall_mem_nil _
    · rename_i refused
      rw [refused] at sound
      exact sound

/-! ## Whole texts -/

theorem Root.part_source {root : Root} (source : Source spells covers [root.element])
    {part : PathPart} (member : part ∈ root.parts) : Source spells covers part.elements := by
  have inside := source.inside
  simp only [Source.append_iff] at inside
  obtain ⟨⟨inPath, -⟩, -⟩ := inside
  rw [Root.parts] at member
  cases path : root.path with
  | none => simp [path] at member
  | some path' =>
      rw [path] at member inPath
      exact (Source.append_iff.mp inPath).2.inside.of_mem_flatMap member

theorem mem_later {part : PathPart} {step : AxisStep} (member : .axis step ∈ part.later) :
    ∃ own, part = .step own ∧ own.body.meaning = .ok step := by
  cases part with
  | separator leaf =>
      rw [PathPart.later] at member
      split at member <;> simp at member
  | step own =>
      cases meaning : own.body.meaning with
      | error refusal => simp [PathPart.later, meaning, Except.toOption] at member
      | ok found =>
          obtain rfl : step = found := by
            simpa [PathPart.later, meaning, Except.toOption] using member
          exact ⟨own, rfl, meaning⟩

/-- Every axis step of a path is what some part of the tree stands for. -/
theorem mem_meaning {root : Root} {step : AxisStep} (member : .axis step ∈ root.meaning) :
    ∃ own, PathPart.step own ∈ root.parts ∧ own.body.meaning = .ok step := by
  rw [Root.meaning] at member
  cases parts : root.parts with
  | nil => simp [parts, meaningOfParts] at member
  | cons first rest =>
      rw [parts, meaningOfParts, List.mem_append] at member
      rcases member with isLeading | isLater
      · have isFirst : .axis step ∈ first.later := by
          cases first with
          | separator leaf => simp [PathPart.leading] at isLeading
          | step own => exact isLeading
        obtain ⟨own, rfl, meaning⟩ := mem_later isFirst
        exact ⟨own, List.mem_cons_self, meaning⟩
      · obtain ⟨part, isPart, inPart⟩ := List.mem_flatMap.mp isLater
        obtain ⟨own, rfl, meaning⟩ := mem_later inPart
        exact ⟨own, List.mem_cons_of_mem _ isPart, meaning⟩

/-- The names in the path of a tree are spelled by the tree's tokens. -/
theorem Root.meaning_spelled {root : Root} (source : Source spells covers [root.element]) :
    ∀ step : AxisStep, .axis step ∈ root.meaning → Spelled spells step.test.names := by
  intro step member
  obtain ⟨own, isPart, meaning⟩ := mem_meaning member
  have sound := StepBody.meaning_sound (Step.body_source (root.part_source source isPart))
  rwa [meaning] at sound

/-- What is reported about the meaning of a tree concerns the tree's tokens and nodes. -/
theorem Root.report_sound {root : Root} (source : Source spells covers [root.element]) :
    ∀ diagnostic ∈ root.report, Concerns covers diagnostic := by
  intro diagnostic member
  obtain ⟨part, isPart, inPart⟩ := List.mem_flatMap.mp member
  have own := root.part_source source isPart
  cases part with
  | separator leaf => cases inPart
  | step step => exact Step.report_sound own diagnostic inPart

end Tree

end PathCover
