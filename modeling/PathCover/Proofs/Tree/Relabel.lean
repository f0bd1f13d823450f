import Mathlib.Data.List.Forall2
import PathCover.ParsedPath

/-!
# Trees at other places

A tree whose tokens are moved to other places, and whose blanks are dropped, stands for the same
path.  What there is to report about its meaning is reported at other places and in other words, but
it is of the same kinds.
-/

namespace PathCover

/-! ## Moving a tree -/

section Moved

variable (index : Nat → Nat)

/-- The same token at another place. -/
def Token.moved (token : Token) : Token := { token with start := index token.start }

namespace Tree

def Leaf.moved (leaf : Leaf) : Leaf := ⟨[], leaf.token.moved index⟩

def NameTest.moved (test : NameTest) : NameTest :=
  ⟨[], test.first.moved index, test.colon.map (Leaf.moved index),
    test.second.map (Leaf.moved index)⟩

mutual

def Argument.moved : Argument → Argument
  | .name test => .name (test.moved index)
  | .mark part => .mark (part.moved index)
  | .stray _ token => .stray [] (token.moved index)
  | .nested _ keyword opener arguments closer =>
      .nested [] (keyword.moved index) (opener.moved index) (Argument.movedOf arguments)
        (closer.map (Leaf.moved index))

def Argument.movedOf : List Argument → List Argument
  | [] => []
  | argument :: rest => argument.moved :: movedOf rest

end

def KindTest.moved (test : KindTest) : KindTest :=
  ⟨[], test.keyword.moved index, test.opener.moved index, Argument.movedOf index test.arguments,
    test.closer.map (Leaf.moved index)⟩

mutual

def PredicateItem.moved : PredicateItem → PredicateItem
  | .leaf part => .leaf (part.moved index)
  | .nested _ opener items closer =>
      .nested [] (opener.moved index) (PredicateItem.movedOf items)
        (closer.map (Leaf.moved index))

def PredicateItem.movedOf : List PredicateItem → List PredicateItem
  | [] => []
  | item :: rest => item.moved :: movedOf rest

end

def Predicate.moved (predicate : Predicate) : Predicate :=
  ⟨[], predicate.opener.moved index, PredicateItem.movedOf index predicate.items,
    predicate.closer.map (Leaf.moved index)⟩

def NodeTest.moved : NodeTest → NodeTest
  | .name test => .name (test.moved index)
  | .kind test => .kind (test.moved index)

def AxisMark.moved : AxisMark → AxisMark
  | .short sign => .short (sign.moved index)
  | .named name colons => .named (name.moved index) (colons.moved index)

def StepBody.moved : StepBody → StepBody
  | .abbreviated sign => .abbreviated (sign.moved index)
  | .tested axis test =>
      .tested (axis.map (AxisMark.moved index)) (test.map (NodeTest.moved index))

def Step.moved (step : Step) : Step :=
  ⟨[], index step.start, step.body.moved index, step.predicates.map (Predicate.moved index)⟩

def PathPart.moved : PathPart → PathPart
  | .separator part => .separator (part.moved index)
  | .step part => .step (part.moved index)

def Path.moved (path : Path) : Path :=
  ⟨[], index path.start, path.parts.map (PathPart.moved index)⟩

def Surplus.moved (surplus : Surplus) : Surplus :=
  ⟨[], index surplus.start, surplus.leaves.map (Leaf.moved index)⟩

def Root.moved (root : Root) : Root :=
  ⟨root.path.map (Path.moved index), root.surplus.map (Surplus.moved index), []⟩

end Tree

end Moved

variable {index : Nat → Nat}

/-! ## Kinds of findings -/

/-- The kinds of the diagnostics of a report. -/
def Report.kinds (report : Report) : List DiagnosticKind := report.map Diagnostic.kind

theorem Report.kinds_append (report others : Report) :
    Report.kinds (report ++ others) = report.kinds ++ others.kinds :=
  List.map_append

/-- Whether a report has errors is up to the kinds of its diagnostics. -/
theorem Report.hasErrors_of_kinds {report other : Report} (same : report.kinds = other.kinds) :
    report.hasErrors = other.hasErrors := by
  have count : ∀ report : Report, report.errorCount =
      report.kinds.countP (fun kind => decide (kind.severity = .error)) := fun report => by
    rw [Report.kinds, List.countP_map]
    rfl
  rw [hasErrors, hasErrors, count, count, same]

@[simp] theorem Token.kind_moved (token : Token) : (token.moved index).kind = token.kind := rfl

@[simp] theorem Token.text_moved (token : Token) : (token.moved index).text = token.text := rfl

namespace Tree

@[simp] theorem Leaf.kind_moved (leaf : Leaf) : (leaf.moved index).kind = leaf.kind := rfl

@[simp] theorem Argument.movedOf_nil : Argument.movedOf index [] = [] := by
  rw [Argument.movedOf]

@[simp] theorem Argument.movedOf_cons (argument : Argument) (rest : List Argument) :
    Argument.movedOf index (argument :: rest) =
      argument.moved index :: Argument.movedOf index rest := by
  rw [Argument.movedOf]

theorem Argument.movedOf_toArgument (test : Option KindTest) (rest : List Argument) :
    Argument.movedOf index ((test.map KindTest.toArgument).toList ++ rest) =
      ((test.map (KindTest.moved index)).map KindTest.toArgument).toList ++
        Argument.movedOf index rest := by
  cases test with
  | none => rfl
  | some test => simp [KindTest.toArgument, KindTest.moved, Argument.moved]

@[simp] theorem PredicateItem.movedOf_nil : PredicateItem.movedOf index [] = [] := by
  rw [PredicateItem.movedOf]

@[simp] theorem PredicateItem.movedOf_cons (item : PredicateItem) (rest : List PredicateItem) :
    PredicateItem.movedOf index (item :: rest) =
      item.moved index :: PredicateItem.movedOf index rest := by
  rw [PredicateItem.movedOf]

theorem PredicateItem.movedOf_toItem (inner : Option Predicate) (rest : List PredicateItem) :
    PredicateItem.movedOf index ((inner.map Predicate.toItem).toList ++ rest) =
      ((inner.map (Predicate.moved index)).map Predicate.toItem).toList ++
        PredicateItem.movedOf index rest := by
  cases inner with
  | none => rfl
  | some inner => simp [Predicate.toItem, Predicate.moved, PredicateItem.moved]

/-! ## Refusals of the same kind -/

/-- The kind of what a refusal reports. -/
def Refusal.kind : Refusal → Option DiagnosticKind
  | .incomplete => none
  | .because diagnostic => some diagnostic.kind

theorem Refusal.kinds_report (refusal : Refusal) : refusal.report.kinds = refusal.kind.toList := by
  cases refusal <;> rfl

/-- Two outcomes agree if they are the same up to where a refusal is and what it says. -/
inductive Agree {α : Type} : Except Refusal α → Except Refusal α → Prop
  | ok (value : α) : Agree (.ok value) (.ok value)
  | error {refusal other : Refusal} (same : refusal.kind = other.kind) :
      Agree (.error refusal) (.error other)

namespace Agree

variable {α β : Type} {first second : Except Refusal α}

theorem refl (meaning : Except Refusal α) : Agree meaning meaning := by
  cases meaning with
  | ok value => exact .ok value
  | error refusal => exact .error rfl

theorem bind {next other : α → Except Refusal β} (agree : Agree first second)
    (later : ∀ value, Agree (next value) (other value)) :
    Agree (first >>= next) (second >>= other) := by
  cases agree with
  | ok value => exact later value
  | error same => exact .error same

theorem toOption (agree : Agree first second) : first.toOption = second.toOption := by
  cases agree <;> rfl

theorem invalid (span other : Text.Span) (detail reason : String) :
    Agree (invalidArguments span detail : Except Refusal α) (invalidArguments other reason) :=
  .error rfl

end Agree

/-- Arguments of a kind test agree if they contribute the same up to refusals. -/
inductive ArgumentMeaning.Agree : ArgumentMeaning → ArgumentMeaning → Prop
  | same (meaning : ArgumentMeaning) : Agree meaning meaning
  | kind {first second : Except Refusal PathCover.KindTest} (agree : Tree.Agree first second) :
      Agree (.kind first) (.kind second)

/-- A kind test stands among the arguments. -/
def Nested (arguments : List ArgumentMeaning) : Prop :=
  ∃ test, ArgumentMeaning.kind test ∈ arguments

theorem eq_or_nested {arguments others : List ArgumentMeaning}
    (agree : List.Forall₂ ArgumentMeaning.Agree arguments others) :
    arguments = others ∨ Nested arguments ∧ Nested others := by
  induction agree with
  | nil => exact .inl rfl
  | cons head _ ih =>
      cases head with
      | kind => exact .inr ⟨⟨_, List.mem_cons_self⟩, ⟨_, List.mem_cons_self⟩⟩
      | same meaning =>
          rcases ih with rfl | ⟨⟨_, member⟩, ⟨_, other⟩⟩
          · exact .inl rfl
          · exact .inr ⟨⟨_, List.mem_cons_of_mem _ member⟩, ⟨_, List.mem_cons_of_mem _ other⟩⟩

section Arguments

variable {arguments others : List ArgumentMeaning} (keyword : Token) (span place : Text.Span)

/-- Where a kind test cannot be an argument, what it means makes no difference. -/
theorem Agree.ofArguments {α : Type} {meaning : Text.Span → List ArgumentMeaning → Except Refusal α}
    (sameArguments : ∀ arguments, Agree (meaning span arguments) (meaning place arguments))
    (refuses : ∀ span arguments, Nested arguments →
      ∃ detail, meaning span arguments = invalidArguments span detail)
    (agree : List.Forall₂ ArgumentMeaning.Agree arguments others) :
    Agree (meaning span arguments) (meaning place others) := by
  rcases eq_or_nested agree with rfl | ⟨nested, other⟩
  · exact sameArguments arguments
  · obtain ⟨_, invalid⟩ := refuses span _ nested
    obtain ⟨_, refused⟩ := refuses place _ other
    rw [invalid, refused]
    exact .invalid ..

theorem withoutArguments_agree (test : PathCover.KindTest)
    (agree : List.Forall₂ ArgumentMeaning.Agree arguments others) :
    Agree (withoutArguments keyword span test arguments)
      (withoutArguments keyword place test others) := by
  cases agree with
  | nil => exact .ok test
  | cons => exact .invalid ..

theorem nameAndType_agree (agree : List.Forall₂ ArgumentMeaning.Agree arguments others) :
    Agree (nameAndType keyword span arguments) (nameAndType keyword place others) := by
  refine .ofArguments span place ?_ ?_ agree
  · intro arguments
    unfold nameAndType
    split <;> first | exact .refl _ | exact .invalid ..
  · rintro span arguments ⟨test, member⟩
    unfold nameAndType
    split <;> first | simp at member | exact ⟨_, rfl⟩

theorem declaredName_agree (agree : List.Forall₂ ArgumentMeaning.Agree arguments others) :
    Agree (declaredName keyword span arguments) (declaredName keyword place others) := by
  refine .ofArguments span place ?_ ?_ agree
  · intro arguments
    unfold declaredName
    dsimp only
    split
    · refine .bind (.refl _) fun name => ?_
      split <;> first | exact .refl _ | exact .invalid ..
    · exact .invalid ..
  · rintro span arguments ⟨test, member⟩
    unfold declaredName
    dsimp only
    split <;> first | simp at member | exact ⟨_, rfl⟩

theorem instructionTarget_agree (agree : List.Forall₂ ArgumentMeaning.Agree arguments others) :
    Agree (instructionTarget span arguments) (instructionTarget place others) := by
  refine .ofArguments span place ?_ ?_ agree
  · intro arguments
    unfold instructionTarget
    split
    · exact .refl _
    · refine .bind (.refl _) fun name => ?_
      split <;> first | exact .refl _ | exact .invalid ..
    · exact .refl _
    · exact .invalid ..
  · rintro span arguments ⟨test, member⟩
    unfold instructionTarget
    split <;> first | simp at member | exact ⟨_, rfl⟩

theorem documentTest_agree (agree : List.Forall₂ ArgumentMeaning.Agree arguments others) :
    Agree (documentTest span arguments) (documentTest place others) := by
  have sameTest : ∀ {first second}, Agree first second →
      Agree (documentTest span [.kind first]) (documentTest place [.kind second]) := by
    intro first second agree
    refine .bind agree fun test => ?_
    split <;> first | exact .refl _ | exact .invalid ..
  cases agree with
  | nil => exact .refl _
  | cons head tail =>
      cases tail with
      | nil =>
          cases head with
          | kind agree => exact sameTest agree
          | same =>
              rename_i meaning
              cases meaning with
              | kind test => exact sameTest (.refl test)
              | _ => exact .invalid ..
      | cons =>
          unfold documentTest
          split <;> split <;> simp_all
          exact .invalid ..

theorem kindTestOf_agree (agree : List.Forall₂ ArgumentMeaning.Agree arguments others) :
    Agree (kindTestOf keyword span arguments)
      (kindTestOf (keyword.moved index) place others) := by
  unfold kindTestOf
  simp only [Token.text_moved]
  split
  case h_1 | h_2 | h_3 => exact withoutArguments_agree keyword span place _ agree
  case h_4 | h_5 => exact .bind (nameAndType_agree keyword span place agree) fun _ => .refl _
  case h_6 | h_7 => exact .bind (declaredName_agree keyword span place agree) fun _ => .refl _
  case h_8 => exact .bind (instructionTarget_agree span place agree) fun _ => .refl _
  case h_9 => exact documentTest_agree span place agree
  case h_10 => exact .error rfl

end Arguments

/-! ## What a moved tree means -/

theorem NameTest.qname_moved (test : NameTest) : (test.moved index).qname = test.qname := by
  obtain ⟨lead, first, colon, second⟩ := test
  cases colon <;> cases second <;> rfl

mutual

theorem Argument.meaning_moved (argument : Argument) :
    List.Forall₂ ArgumentMeaning.Agree argument.meaning (argument.moved index).meaning := by
  cases argument with
  | name test =>
      rw [Argument.moved, Argument.meaning, Argument.meaning, NameTest.qname_moved]
      exact .cons (.same _) .nil
  | mark part =>
      rw [Argument.moved, Argument.meaning, Argument.meaning, Leaf.kind_moved]
      split <;> first | exact .cons (.same _) .nil | exact .nil
  | stray lead token =>
      rw [Argument.moved, Argument.meaning, Argument.meaning]
      exact .nil
  | nested lead keyword opener arguments closer =>
      rw [Argument.moved, Argument.meaning, Argument.meaning]
      exact .cons (.kind (kindTestOf_agree _ _ _ (Argument.meaningOf_moved arguments))) .nil

theorem Argument.meaningOf_moved (arguments : List Argument) :
    List.Forall₂ ArgumentMeaning.Agree (Argument.meaningOf arguments)
      (Argument.meaningOf (Argument.movedOf index arguments)) := by
  cases arguments with
  | nil => exact .nil
  | cons argument rest =>
      rw [Argument.movedOf, Argument.meaningOf, Argument.meaningOf]
      exact List.rel_append (Argument.meaning_moved argument) (Argument.meaningOf_moved rest)

end

theorem KindTest.meaning_moved (test : KindTest) :
    Agree test.meaning (test.moved index).meaning :=
  kindTestOf_agree _ _ _ (Argument.meaningOf_moved test.arguments)

theorem NodeTest.meaning_moved (test : NodeTest) :
    Agree test.meaning (test.moved index).meaning := by
  cases test with
  | name test =>
      rw [NodeTest.moved, NodeTest.meaning, NodeTest.meaning, NameTest.qname_moved]
      exact .refl _
  | kind test => exact .bind test.meaning_moved fun _ => .refl _

theorem axisOf_moved (name : Token) : Agree (axisOf name) (axisOf (name.moved index)) := by
  unfold axisOf
  rw [Token.text_moved]
  split
  · exact .ok _
  · exact .error rfl

theorem StepBody.meaning_moved (body : StepBody) :
    Agree body.meaning (body.moved index).meaning := by
  cases body with
  | abbreviated sign => exact .refl _
  | tested axis test =>
      rcases axis with _ | ⟨sign⟩ | ⟨name, colons⟩ <;> rcases test with _ | test
      · exact .refl _
      · exact .bind test.meaning_moved fun _ => .refl _
      · exact .refl _
      · exact .bind test.meaning_moved fun _ => .refl _
      · exact .bind (axisOf_moved name.token) fun _ => .refl _
      · exact .bind (axisOf_moved name.token) fun _ =>
          .bind test.meaning_moved fun _ => .refl _

theorem Step.kinds_moved (step : Step) :
    (step.moved index).report.kinds = step.report.kinds := by
  have agree : Agree step.body.meaning (step.body.moved index).meaning := step.body.meaning_moved
  rw [Step.report, Step.report, Report.kinds_append, Report.kinds_append]
  congr 1
  · simp [Step.moved, Report.kinds, Predicate.ignored, Diagnostic.plain]
  · dsimp only [Step.moved]
    generalize step.body.meaning = meaning at agree
    generalize (step.body.moved index).meaning = other at agree
    cases agree with
    | ok => rfl
    | error same => rw [Refusal.kinds_report, Refusal.kinds_report, same]

theorem PathPart.later_moved (part : PathPart) : (part.moved index).later = part.later := by
  cases part with
  | separator part => rfl
  | step part =>
      have agree : Agree part.body.meaning (part.body.moved index).meaning :=
        part.body.meaning_moved
      rw [PathPart.moved, PathPart.later, PathPart.later, Step.moved, agree.toOption]

theorem PathPart.leading_moved (part : PathPart) : (part.moved index).leading = part.leading := by
  cases part with
  | separator part => rfl
  | step part => exact PathPart.later_moved (.step part)

theorem PathPart.kinds_moved (part : PathPart) :
    (part.moved index).report.kinds = part.report.kinds := by
  cases part with
  | separator part => rfl
  | step part => exact part.kinds_moved

theorem Root.parts_moved (root : Root) :
    (root.moved index).parts = root.parts.map (PathPart.moved index) := by
  obtain ⟨path, surplus, trail⟩ := root
  cases path <;> rfl

/-- A moved tree stands for the same path. -/
theorem Root.meaning_moved (root : Root) : (root.moved index).meaning = root.meaning := by
  rw [Root.meaning, Root.meaning, Root.parts_moved]
  cases root.parts with
  | nil => rfl
  | cons first rest =>
      rw [List.map_cons, meaningOfParts, meaningOfParts, PathPart.leading_moved, List.flatMap_map]
      simp only [PathPart.later_moved]

/-- There is as much to report about a moved tree, and of the same kinds. -/
theorem Root.kinds_moved (root : Root) : (root.moved index).report.kinds = root.report.kinds := by
  rw [Root.report, Root.report, Root.parts_moved, List.flatMap_map, Report.kinds, Report.kinds,
    List.map_flatMap, List.map_flatMap]
  congr 1
  funext part
  exact part.kinds_moved

end Tree

end PathCover
