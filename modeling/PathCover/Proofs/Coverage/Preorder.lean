import PathCover.Coverage.Step
import PathCover.Proofs.Coverage.Laws
import PathCover.Proofs.Token.Longest
import PathCover.Proofs.Tree.Lossless
import PathCover.Proofs.Tree.Provenance

/-!
# Coverage of steps is a preorder

A step covers itself, and a step that covers one that covers a third covers the third, although the
tests of attributes ask for the axis of the step that is covered, which changes on the way.  The
qualifiers of two names are compared as texts, in which a qualifier that was not written is empty
and a wildcard is `*`; so this holds only if no qualifier is written with one of these two texts.
Names that come from texts never are.
-/

namespace PathCover

/-- Half of a name that is not taken for a wildcard or for a missing half. -/
def NamePart.Unambiguous : NamePart → Prop
  | .any => True
  | .named text => text ≠ "" ∧ text ≠ "*"

instance : DecidablePred NamePart.Unambiguous
  | .any => .isTrue trivial
  | .named text => inferInstanceAs (Decidable (text ≠ "" ∧ text ≠ "*"))

/-- A name with halves that are not taken for others. -/
def QName.Unambiguous (name : QName) : Prop := ∀ part ∈ name.parts, part.Unambiguous

instance (name : QName) : Decidable name.Unambiguous :=
  inferInstanceAs (Decidable (∀ part ∈ name.parts, part.Unambiguous))

/-- A step whose names have halves that are not taken for others. -/
def AxisStep.Unambiguous (step : AxisStep) : Prop := ∀ name ∈ step.test.names, name.Unambiguous

instance (step : AxisStep) : Decidable step.Unambiguous :=
  inferInstanceAs (Decidable (∀ name ∈ step.test.names, name.Unambiguous))

/-! ## Names -/

namespace QName

variable {first second third : QName}

theorem coveredBy_iff : first.coveredBy second = true ↔ first = second ∨
    second.localPart = .any ∧ (second.qualifier = none ∨ second.qualifier = some .any ∨
      first.qualifierText = second.qualifierText) := by
  simp [coveredBy, or_assoc]

/-- A qualifier that was written reads unlike a missing one and unlike a wildcard. -/
theorem Unambiguous.qualifierText (unambiguous : third.Unambiguous) :
    third.qualifier = none ∨ third.qualifier = some .any ∨
      third.qualifierText ≠ "" ∧ third.qualifierText ≠ "*" := by
  obtain ⟨qualifier, localPart⟩ := third
  match qualifier with
  | none => exact .inl rfl
  | some .any => exact .inr (.inl rfl)
  | some (.named text) => exact .inr (.inr (unambiguous (.named text) (.head _)))

theorem coveredBy_trans (unambiguous : third.Unambiguous)
    (covered : first.coveredBy second = true) (further : second.coveredBy third = true) :
    first.coveredBy third = true := by
  rw [coveredBy_iff] at covered further ⊢
  obtain rfl | ⟨isAny, qualified⟩ := further
  · exact covered
  refine .inr ⟨isAny, ?_⟩
  obtain free | free | ⟨notEmpty, notStar⟩ := unambiguous.qualifierText
  · exact .inl free
  · exact .inr (.inl free)
  -- The third name has a qualifier of its own, and the second one has the same.
  right
  right
  obtain free | free | same := qualified
  · simp [free, qualifierText] at notEmpty
  · simp [free, qualifierText, NamePart.render] at notStar
  rw [← same] at notEmpty notStar ⊢
  obtain rfl | ⟨-, missing | isWildcard | sameFirst⟩ := covered
  · rfl
  · simp [qualifierText, missing] at notEmpty
  · simp [qualifierText, isWildcard, NamePart.render] at notStar
  · exact sameFirst

/-- The same where the third name may be left out. -/
theorem optionCoveredBy_of_coveredBy {first second : QName} {third : Option QName}
    (unambiguous : ∀ name ∈ third.toList, name.Unambiguous)
    (covered : first.coveredBy second = true)
    (further : optionCoveredBy (some second) third = true) :
    optionCoveredBy (some first) third = true := by
  cases third with
  | none => rfl
  | some third => exact coveredBy_trans (unambiguous third (.head _)) covered further

end QName

/-! ## Axes -/

namespace Axis

variable {first second third : Axis}

theorem coveredBy_iff : first.coveredBy second = true ↔ first = second ∨
    (first = .followingSibling ∧ second = .following) ∨
      (first = .precedingSibling ∧ second = .preceding) := by
  cases first <;> cases second <;> simp [coveredBy]

theorem coveredBy_trans (covered : first.coveredBy second = true)
    (further : second.coveredBy third = true) : first.coveredBy third = true := by
  rw [coveredBy_iff] at covered further
  obtain rfl | ⟨rfl, rfl⟩ | ⟨rfl, rfl⟩ := covered
  · exact coveredBy_iff.mpr further
  · obtain rfl | ⟨impossible, -⟩ | ⟨impossible, -⟩ := further
    · rfl
    · cases impossible
    · cases impossible
  · obtain rfl | ⟨impossible, -⟩ | ⟨impossible, -⟩ := further
    · rfl
    · cases impossible
    · cases impossible

/-- Nothing but the attribute axis is covered by it. -/
theorem eq_attribute (covered : first.coveredBy .attribute = true) : first = .attribute := by
  obtain same | ⟨-, impossible⟩ | ⟨-, impossible⟩ := coveredBy_iff.mp covered
  · exact same
  · cases impossible
  · cases impossible

end Axis

/-! ## Node tests -/

/-- A kind test that accepts a name along an axis accepts it along every axis inside that one. -/
theorem KindTest.coversName_of_axis {cover : KindTest} {name : QName} {axis wider : Axis}
    (inside : axis.coveredBy wider = true) (covers : cover.coversName name wider = true) :
    cover.coversName name axis = true := by
  -- Only the tests of attributes ask for the axis.
  have onAttributes : ∀ {rest : Bool}, (decide (wider = .attribute) && rest) = true →
      (decide (axis = .attribute) && rest) = true := by
    intro rest both
    obtain ⟨isAttribute, holds⟩ := Bool.and_eq_true_iff.mp both
    rw [of_decide_eq_true isAttribute] at inside
    rw [Axis.eq_attribute inside, holds]
    rfl
  cases cover with
  | «attribute» coverName typeName => exact onAttributes covers
  | schemaAttribute coverName => exact onAttributes covers
  | _ => exact covers

/-- A kind test that accepts a name accepts every name that is covered by it. -/
theorem KindTest.coversName_of_name {cover : KindTest} {name wider : QName} {axis : Axis}
    (unambiguous : ∀ own ∈ cover.names, own.Unambiguous) (inside : name.coveredBy wider = true)
    (covers : cover.coversName wider axis = true) : cover.coversName name axis = true := by
  cases cover with
  | element coverName typeName =>
      have named := (List.forall_mem_append.mp unambiguous).1
      exact QName.optionCoveredBy_of_coveredBy named inside covers
  | schemaElement coverName =>
      exact QName.coveredBy_trans (unambiguous _ (.head _)) inside covers
  | «attribute» coverName typeName =>
      have named := (List.forall_mem_append.mp unambiguous).1
      obtain ⟨isAttribute, covered⟩ := Bool.and_eq_true_iff.mp covers
      exact Bool.and_eq_true_iff.mpr
        ⟨isAttribute, QName.optionCoveredBy_of_coveredBy named inside covered⟩
  | schemaAttribute coverName =>
      obtain ⟨isAttribute, covered⟩ := Bool.and_eq_true_iff.mp covers
      exact Bool.and_eq_true_iff.mpr
        ⟨isAttribute, QName.coveredBy_trans (unambiguous _ (.head _)) inside covered⟩
  | _ => exact covers

namespace NodeTest

variable {first second third : NodeTest} {axis wider : Axis}

theorem coveredBy_iff : first.coveredBy axis second = true ↔ first = second ∨
    second = .kind .anyKind ∨
    (∃ own cover, first = .name own ∧ second = .name cover ∧ own.coveredBy cover = true) ∨
    ∃ own cover, first = .name own ∧ second = .kind cover ∧
      cover.coversName own axis = true := by
  unfold coveredBy
  rw [Bool.or_eq_true, decide_eq_true_eq]
  refine or_congr .rfl ?_
  split
  · simp
  · simp
  · rename_i own cover notAny
    have other : cover ≠ .anyKind := notAny
    simp [other]
  · rename_i own other notAny
    cases other <;> simp_all

/-- A test that covers another along an axis does so along every axis inside that one. -/
theorem coveredBy_of_axis (inside : axis.coveredBy wider = true)
    (covered : first.coveredBy wider second = true) : first.coveredBy axis second = true := by
  rw [coveredBy_iff] at covered ⊢
  obtain same | isAny | names | ⟨own, cover, isName, isKind, covers⟩ := covered
  · exact .inl same
  · exact .inr (.inl isAny)
  · exact .inr (.inr (.inl names))
  · exact .inr (.inr (.inr ⟨own, cover, isName, isKind,
      KindTest.coversName_of_axis inside covers⟩))

theorem coveredBy_trans (unambiguous : ∀ name ∈ third.names, name.Unambiguous)
    (covered : first.coveredBy axis second = true)
    (further : second.coveredBy axis third = true) : first.coveredBy axis third = true := by
  rw [coveredBy_iff] at further
  obtain rfl | rfl | ⟨second, cover, rfl, rfl, covers⟩ | ⟨second, cover, rfl, rfl, covers⟩ :=
    further
  · exact covered
  · exact coveredBy_iff.mpr (.inr (.inl rfl))
  -- The second test is a name, so the first one is too.
  all_goals
    rw [coveredBy_iff] at covered ⊢
    obtain rfl | impossible | ⟨first, _, rfl, ⟨⟩, inside⟩ | ⟨_, _, _, impossible, _⟩ := covered
  · exact .inr (.inr (.inl ⟨second, cover, rfl, rfl, covers⟩))
  · cases impossible
  · have whole := QName.coveredBy_trans (unambiguous _ (.head _)) inside covers
    exact .inr (.inr (.inl ⟨first, cover, rfl, rfl, whole⟩))
  · cases impossible
  · exact .inr (.inr (.inr ⟨second, cover, rfl, rfl, covers⟩))
  · cases impossible
  · have whole := KindTest.coversName_of_name unambiguous inside covers
    exact .inr (.inr (.inr ⟨first, cover, rfl, rfl, whole⟩))
  · cases impossible

end NodeTest

/-! ## Steps of texts -/

/-- No token spells half of a name that is taken for another one. -/
theorem Token.unambiguous_namePart {text : String} {token : Token} (member : token ∈ lex text) :
    (Tree.namePart token).Unambiguous := by
  obtain ⟨after, first, rest, isText, kind⟩ := opens_of_mem_lex member
  rw [text_lexeme] at isText
  unfold Tree.namePart
  split
  · trivial
  · rename_i notStar
    refine ⟨fun isEmpty => ?_, fun isStar => ?_⟩
    · rw [isEmpty] at isText
      cases isText
    · -- What starts with a star is a star.
      rw [isStar] at isText
      obtain ⟨rfl, rfl⟩ := List.cons.inj (isText : ['*'] = first :: rest)
      exact notStar kind.symm

/-- Every step of a parsed text has names that are not taken for others. -/
theorem ParsedPath.unambiguous_of_parse {limits : Tree.Limits} {text : String}
    {parsed : ParsedPath} (isParsed : parse limits text = .ok parsed) {step : AxisStep}
    (member : .axis step ∈ parsed.path) : step.Unambiguous := by
  have source : Tree.Source NamePart.Unambiguous (fun _ => True) [parsed.root.element] := by
    refine ⟨fun token isLeaf => ?_, fun _ _ => trivial, fun _ _ _ => trivial⟩
    rw [Tree.Element.leavesOf_cons, Tree.Element.leavesOf_nil, List.append_nil,
      leaves_of_parse isParsed] at isLeaf
    exact Token.unambiguous_namePart isLeaf
  have isMeaning : parsed.path = parsed.root.meaning := by
    obtain ⟨-, -, rfl⟩ := parse_eq_read.mp isParsed
    rfl
  rw [isMeaning] at member
  exact Tree.Root.meaning_spelled source step member

namespace AxisStep

/-- Coverage of steps is a preorder, as far as names are not taken for others, and in the steps of
texts they are not.  For transitivity the step that covers the two others has to be so. -/
theorem coveredBy_preorder :
    (∀ (limits : Tree.Limits) (text : String) (parsed : ParsedPath),
        ParsedPath.parse limits text = .ok parsed →
          ∀ step : AxisStep, .axis step ∈ parsed.path → step.Unambiguous) ∧
      (∀ step : AxisStep, step.coveredBy step = true) ∧
      ∀ first second third : AxisStep, third.Unambiguous → first.coveredBy second = true →
        second.coveredBy third = true → first.coveredBy third = true := by
  refine ⟨fun limits text parsed isParsed step member =>
    ParsedPath.unambiguous_of_parse isParsed member, coveredBy_self, ?_⟩
  intro first second third unambiguous covered further
  obtain ⟨axes, tests⟩ := Bool.and_eq_true_iff.mp covered
  obtain ⟨furtherAxes, furtherTests⟩ := Bool.and_eq_true_iff.mp further
  refine Bool.and_eq_true_iff.mpr ⟨Axis.coveredBy_trans axes furtherAxes, ?_⟩
  exact NodeTest.coveredBy_trans unambiguous tests
    (NodeTest.coveredBy_of_axis axes furtherTests)

/-- A step of an invalid text, and three steps of which each covers the one before it. -/
theorem coveredBy_preorder_siblings :
    (∃ parsed, ParsedPath.parse .standard "a:b/[*:c" = .ok parsed ∧ parsed.isValid = false ∧
        .axis ⟨.child, .name ⟨some (.named "a"), .named "b"⟩⟩ ∈ parsed.path ∧
        QName.Unambiguous ⟨some (.named "a"), .named "b"⟩) ∧
      (let first : AxisStep := ⟨.followingSibling, .name ⟨some (.named "a"), .named "b"⟩⟩
      let second : AxisStep := ⟨.following, .name ⟨some (.named "a"), .any⟩⟩
      let third : AxisStep := ⟨.following, .kind (.element (some ⟨some (.named "a"), .any⟩) none)⟩
      third.Unambiguous ∧ first.coveredBy second = true ∧ second.coveredBy third = true ∧
        first.coveredBy third = true) := by
  constructor
  · obtain ⟨parsed, isParsed, found⟩ := ParsedPath.exists_of_toOption
      (by decide +kernel : (ParsedPath.parse .standard "a:b/[*:c").toOption.map
        (fun parsed => (parsed.isValid, parsed.path)) =
          some (false, [.axis ⟨.child, .name ⟨some (.named "a"), .named "b"⟩⟩]))
    obtain ⟨invalid, path⟩ := Prod.mk.inj found
    have member : .axis ⟨.child, .name ⟨some (.named "a"), .named "b"⟩⟩ ∈ parsed.path := by
      rw [path]
      exact List.mem_cons_self
    exact ⟨parsed, isParsed, invalid, member,
      coveredBy_preorder.1 .standard _ parsed isParsed _ member _ (.head _)⟩
  · intro first second third
    have unambiguous : third.Unambiguous := by decide
    have covered : first.coveredBy second = true := by decide
    have further : second.coveredBy third = true := by decide
    exact ⟨unambiguous, covered, further,
      coveredBy_preorder.2.2 first second third unambiguous covered further⟩

/-- A qualifier that is written as nothing is taken for a missing one, and what it covers does not
cover what a missing one covers. -/
example :
    let first : AxisStep := ⟨.child, .name ⟨some (.named "a"), .named "b"⟩⟩
    let second : AxisStep := ⟨.child, .name ⟨none, .any⟩⟩
    let third : AxisStep := ⟨.child, .name ⟨some (.named ""), .any⟩⟩
    first.coveredBy second = true ∧ second.coveredBy third = true ∧
      first.coveredBy third = false := by
  decide

end AxisStep

end PathCover
