import PathCover.Proofs.Grammar.Accepts
import PathCover.Proofs.Tree.Schema

/-!
# Trees fit the schema

Each part of the grammar builds elements whose nodes fit the schema, whatever it reads and wherever
it gives up.  Elements are related here to the reader that is left behind them: a group among them
may lack its closing token only if that reader has reported something or hit a limit.
-/

namespace PathCover

namespace Tree

open Element

/-! ## What is built -/

/-- Elements of which every node fits the schema.  If the reader behind them is clean, every group
among them is closed. -/
structure Builds (elements : List Element) (later : Reader) : Prop where
  fits : ∀ node ∈ nodesOf elements, node.Fits
  closed : later.Clean → ∀ node ∈ nodesOf elements, node.Closed

/-- Elements that fit the schema and have an allowed row. -/
structure BuildsRow (allowed : List ElementKind → Prop) (elements : List Element)
    (later : Reader) : Prop extends Builds elements later where
  row : allowed (rowOf elements)

/-- A node that fits the schema, with blanks around it. -/
abbrev BuildsNode (kind : NodeKind) : List Element → Reader → Prop :=
  BuildsRow (· = [.node kind])

/-- Elements that fit the schema, at most one of them and that of an allowed kind, blanks aside. -/
abbrev BuildsOne (allowed : ElementKind → Prop) : List Element → Reader → Prop :=
  BuildsRow fun row => ∃ found : Option ElementKind, row = found.toList ∧
    ∀ kind ∈ found, allowed kind

/-- Elements that fit the schema and are of allowed kinds, blanks aside. -/
abbrev BuildsAll (allowed : ElementKind → Prop) : List Element → Reader → Prop :=
  BuildsRow fun row => ∀ kind ∈ row, allowed kind

section Algebra

variable {allowed : ElementKind → Prop} {elements others : List Element}
  {middle later : Reader}

namespace Builds

/-- Tokens fit everywhere. -/
theorem tokens (noNodes : nodesOf elements = []) : Builds elements later := by
  constructor <;> simp [noNodes]

theorem behind (builds : Builds elements middle) (moves : Moves middle later) :
    Builds elements later :=
  ⟨builds.fits, fun clean => builds.closed (moves.clean clean)⟩

theorem append (first : Builds elements later) (second : Builds others later) :
    Builds (elements ++ others) later := by
  constructor
  · rw [nodesOf_append]
    exact List.forall_mem_append.mpr ⟨first.fits, second.fits⟩
  · intro clean
    rw [nodesOf_append]
    exact List.forall_mem_append.mpr ⟨first.closed clean, second.closed clean⟩

end Builds

theorem BuildsRow.behind {allowed : List ElementKind → Prop}
    (builds : BuildsRow allowed elements middle) (moves : Moves middle later) :
    BuildsRow allowed elements later :=
  ⟨builds.toBuilds.behind moves, builds.row⟩

namespace BuildsNode

variable {kind : NodeKind} {start : Nat} {lead : List Token}

theorem mk (blank : AreBlank lead) (inside : Builds elements later)
    (fits : (Element.node kind start elements).Fits)
    (closed : later.Clean → (Element.node kind start elements).Closed) :
    BuildsNode kind (blankElements lead ++ [.node kind start elements]) later := by
  refine ⟨⟨?_, ?_⟩, ?_⟩
  · simpa using ⟨fits, inside.fits⟩
  · intro clean
    simpa using ⟨closed clean, inside.closed clean⟩
  · simp [rowOf_blankElements blank]

/-- A node that is no group. -/
theorem plain (noGroup : kind.closer? = none) (blank : AreBlank lead)
    (inside : Builds elements later) (allows : kind.Allows (rowOf elements)) :
    BuildsNode kind (blankElements lead ++ [.node kind start elements]) later := by
  apply mk blank inside
  · constructor
    · rintro _ ⟨rfl⟩
      exact allows
    · rintro ⟨rfl⟩
      cases noGroup
  · rintro _ _ ⟨rfl⟩ closer isCloser
    rw [noGroup] at isCloser
    cases isCloser

/-- A group, which ends with its closing token unless something went wrong. -/
theorem group {closer : TokenKind} (isGroup : kind.closer? = some closer) (blank : AreBlank lead)
    (inside : Builds elements later) (allows : kind.Allows (rowOf elements))
    (strays : kind = .kindTest → StraysAlone elements)
    (ends : later.Clean → (rowOf elements).getLast? = some (.token closer)) :
    BuildsNode kind (blankElements lead ++ [.node kind start elements]) later := by
  apply mk blank inside
  · constructor
    · rintro _ ⟨rfl⟩
      exact allows
    · rintro ⟨rfl⟩
      exact strays rfl
  · rintro clean _ ⟨rfl⟩ other isCloser
    obtain rfl : closer = other := Option.some.inj (isGroup.symm.trans isCloser)
    exact ends clean

end BuildsNode

namespace BuildsOne

theorem nothing : BuildsOne allowed [] later :=
  ⟨.tokens nodesOf_nil, none, rfl, by simp⟩

theorem ofNode {kind : NodeKind} (builds : BuildsNode kind elements later)
    (allows : allowed (.node kind)) : BuildsOne allowed elements later :=
  ⟨builds.toBuilds, some (.node kind), builds.row, by simpa using allows⟩

/-- A node that may be missing. -/
theorem ofOption {α : Type} {kind : NodeKind} {toElements : α → List Element} {found : Option α}
    (builds : ∀ part ∈ found, BuildsNode kind (toElements part) later)
    (allows : allowed (.node kind)) :
    BuildsOne allowed (optionElements toElements found) later := by
  cases found with
  | none => exact nothing
  | some part => exact ofNode (builds part rfl) allows

end BuildsOne

namespace BuildsAll

theorem nothing : BuildsAll allowed [] later :=
  ⟨.tokens nodesOf_nil, by simp⟩

theorem one (builds : BuildsOne allowed elements later) : BuildsAll allowed elements later := by
  obtain ⟨found, isRow, allows⟩ := builds.row
  refine ⟨builds.toBuilds, ?_⟩
  rw [isRow]
  exact fun kind member => allows kind (Option.mem_toList.mp member)

theorem append (first : BuildsAll allowed elements later)
    (second : BuildsAll allowed others later) : BuildsAll allowed (elements ++ others) later := by
  refine ⟨first.toBuilds.append second.toBuilds, ?_⟩
  rw [rowOf_append]
  exact List.forall_mem_append.mpr ⟨first.row, second.row⟩

end BuildsAll

end Algebra

/-! ## Name tests and closing tokens -/

variable {reader later : Reader}

theorem nameTest_builds {first : Leaf} {test : NameTest}
    (ran : (nameTest first).run reader = (test, later)) (spaced : reader.Spaced)
    (next : reader.rest.head? = some first) (starts : first.kind.startsNameTest = true) :
    BuildsNode .nameTest test.elements later := by
  have seen := spaced.seen next
  simp only [nameTest, run_bind, run_advance] at ran
  rcases eat_cases .colon reader.step with ⟨colon, nextColon, isColon, ate⟩ | ate
  · have seenColon := spaced.step.seen nextColon
    simp only [ate, run_bind, run_lookFor] at ran
    split at ran
    · rename_i second found
      obtain ⟨nextSecond, startsSecond⟩ := head_of_filter TokenKind.startsNameTest found
      have seenSecond := spaced.step.spend.step.seen nextSecond
      simp only [run_bind, run_advance] at ran
      obtain ⟨rfl, rfl⟩ := ran_pure ran
      rw [NameTest.elements_mk]
      apply BuildsNode.plain rfl seen.blanks (.tokens (by simp))
      simp only [optionElements, rowOf_append, seen.bare.rowOf_elements,
        seenColon.rowOf_elements, seenSecond.rowOf_elements, isColon]
      exact @NodeKind.Allows.qualified _ (some second.kind) starts (by simpa using startsSecond)
    · simp only [run_bind] at ran
      obtain ⟨rfl, rfl⟩ := ran_pure ran
      rw [NameTest.elements_mk]
      apply BuildsNode.plain rfl seen.blanks (.tokens (by simp))
      simp only [optionElements, rowOf_append, seen.bare.rowOf_elements,
        seenColon.rowOf_elements, isColon]
      exact @NodeKind.Allows.qualified _ none starts (by simp)
  · simp only [ate] at ran
    obtain ⟨rfl, rfl⟩ := ran_pure ran
    rw [NameTest.elements_mk]
    apply BuildsNode.plain rfl seen.blanks (.tokens (by simp))
    simp only [optionElements, rowOf_append, seen.bare.rowOf_elements]
    exact .name starts

/-- A group ends with its closing token at most, and with nothing else. -/
theorem close_row {closer : TokenKind} {kind : DiagnosticKind} {detail : String}
    {opener : Token} {closed : Option Leaf}
    (ran : (close closer kind detail opener).run reader = (closed, later))
    (spaced : reader.Spaced) :
    ∃ found : Option ElementKind, rowOf (optionElements Leaf.elements closed) = found.toList ∧
      (∀ kind ∈ found, kind = .token closer) ∧ (later.Clean → found = some (.token closer)) := by
  simp only [close, run_bind] at ran
  rcases eat_cases closer reader with ⟨leaf, next, same, ate⟩ | ate
  · simp only [ate] at ran
    obtain ⟨rfl, rfl⟩ := ran_pure ran
    refine ⟨some (.token closer), ?_, ?_, fun _ => rfl⟩
    · rw [optionElements, (spaced.seen next).rowOf_elements, same]
      rfl
    · rintro _ ⟨rfl⟩
      rfl
  · simp only [ate, run_bind] at ran
    obtain ⟨rfl, rfl⟩ := ran_pure ran
    refine ⟨none, rfl, by rintro _ ⟨⟩, ?_⟩
    intro clean
    cases clean.silent

/-! ## Kind tests -/

/-- Elements that fit between the parentheses of a kind test. -/
structure BuildsArguments (elements : List Element) (later : Reader) : Prop
    extends BuildsRow (∀ kind ∈ ·, kind.isArgument = true) elements later where
  strays : StraysAlone elements

namespace BuildsArguments

variable {elements others : List Element} {middle : Reader}

theorem nothing : BuildsArguments [] later := ⟨BuildsAll.nothing, by simp [StraysAlone]⟩

theorem behind (builds : BuildsArguments elements middle) (moves : Moves middle later) :
    BuildsArguments elements later :=
  ⟨builds.toBuildsRow.behind moves, builds.strays⟩

theorem append (first : BuildsArguments elements later) (second : BuildsArguments others later) :
    BuildsArguments (elements ++ others) later :=
  ⟨BuildsAll.append first.toBuildsRow second.toBuildsRow,
    straysAlone_append first.strays second.strays⟩

/-- An argument that is no stray token. -/
theorem one (builds : BuildsOne (fun kind => kind.isArgument = true ∧ kind ≠ .node .error)
    elements later) : BuildsArguments elements later := by
  have all := BuildsAll.one builds
  refine ⟨⟨all.toBuilds, fun kind member => (all.row kind member).1⟩, straysAlone_of_row ?_⟩
  exact fun member => (all.row _ member).2 rfl

end BuildsArguments

/-- What a reading of arguments builds, wherever it starts. -/
def ArgumentsBuild (reading : Reading (List Argument)) : Prop :=
  ∀ {reader later : Reader} {arguments : List Argument},
    reading.run reader = (arguments, later) → reader.Spaced →
      BuildsArguments (Argument.elementsOf arguments) later

theorem kindTestWith_builds {inner : Reading (List Argument)} {depth : Nat}
    {keyword opener : Leaf} {test : Option KindTest}
    (ran : (kindTestWith inner depth keyword opener).run reader = (test, later))
    (spaced : reader.Spaced) (build : ArgumentsBuild inner)
    (moves : ∀ reader, Moves reader (inner.run reader).2)
    (next : reader.rest.head? = some keyword) (second : reader.rest.tail.head? = some opener)
    (isName : keyword.kind = .name) (isOpener : opener.kind = .parenOpen) :
    ∀ given ∈ test, BuildsNode .kindTest given.elements later := by
  have seen := spaced.seen next
  have seenOpener : opener.Seen := spaced.step.seen (by simpa using second)
  rw [kindTestWith, run_bind] at ran
  rcases run_mayOpen depth reader with opened | refused
  · simp only [opened, if_true, advance_then, look_then] at ran
    obtain ⟨arguments, middle, ranInner, ran⟩ := ran_bind ran
    obtain ⟨closed, final, ranClose, ran⟩ := ran_bind ran
    obtain ⟨rfl, rfl⟩ := ran_pure ran
    have inside : reader.step.spend.step.Spaced := spaced.step.spend.step
    have built := build ranInner inside
    obtain ⟨closer, closerRow, isCloser, ends⟩ := close_row ranClose (inside.after moves ranInner)
    have row : rowOf (keyword.bare.elements ++ (opener.elements ++
          Argument.elementsOf arguments ++ optionElements Leaf.elements closed)) =
        .token .name :: .token .parenOpen ::
          (rowOf (Argument.elementsOf arguments) ++ closer.toList) := by
      simp only [rowOf_append, seen.bare.rowOf_elements, seenOpener.rowOf_elements, closerRow,
        isOpener, ← isName]
      rfl
    rintro _ ⟨rfl⟩
    rw [KindTest.elements_mk]
    apply BuildsNode.group rfl seen.blanks
    · -- What was read inside is only known up to the closing token, which comes behind it.
      have arguments := built.toBuilds.behind (.ofRan (moves_close _ _ _ _ rfl _) ranClose)
      exact (Builds.tokens (by simp)).append
        (((Builds.tokens (by simp)).append arguments).append (.tokens (by simp)))
    · rw [row]
      exact .kindTest built.row isCloser
    · intro _
      exact straysAlone_append (straysAlone_tokens (by simp)) (straysAlone_append
        (straysAlone_append (straysAlone_tokens (by simp)) built.strays)
        (straysAlone_tokens (by simp)))
    · intro clean
      rw [row, ends clean]
      simp [List.getLast?_cons]
  · simp only [refused, Bool.false_eq_true, if_false] at ran
    obtain ⟨rfl, -⟩ := ran_pure ran
    rintro _ ⟨⟩

/-- A token that fits nowhere is the only one in its node. -/
theorem stray_builds {leaf : Leaf} {argument : Argument}
    (ran : (stray leaf).run reader = (argument, later)) (spaced : reader.Spaced)
    (next : reader.rest.head? = some leaf) : BuildsArguments argument.elements later := by
  have seen := spaced.seen next
  simp only [stray, look_then, reportHere_then, advance_then] at ran
  obtain ⟨rfl, -⟩ := ran_pure ran
  have row : rowOf [Element.leaf leaf.token] = [.token leaf.kind] := seen.bare.rowOf_elements
  have built : BuildsNode .error (Argument.stray leaf.blanks leaf.token).elements later := by
    rw [Argument.elements]
    apply BuildsNode.plain rfl seen.blanks (.tokens (by simp))
    rw [row]
    exact .error (by simp) (by simp)
  refine ⟨BuildsAll.one (.ofNode built rfl), ?_⟩
  intro element member isError
  rw [Argument.elements] at member
  rcases List.mem_append.mp member with isBlank | isNode
  · obtain ⟨blank, -, rfl⟩ := List.mem_map.mp isBlank
    cases isError
  · rw [List.mem_singleton.mp isNode]
    exact ⟨leaf.kind, row⟩

/-- A token that is an argument by itself. -/
theorem mark_builds {leaf : Leaf} (seen : leaf.Seen)
    (isArgument : (ElementKind.token leaf.kind).isArgument = true) :
    BuildsArguments (Argument.mark leaf).elements later := by
  have noNodes : nodesOf (Argument.mark leaf).elements = [] := by simp [Argument.elements]
  refine ⟨⟨.tokens noNodes, ?_⟩, straysAlone_tokens noNodes⟩
  rw [Argument.elements, seen.rowOf_elements]
  simpa using isArgument

/-- Arguments in front of those that are read next. -/
theorem BuildsArguments.more {fuel depth : Nat} {middle : Reader} {elements : List Element}
    {rest : List Argument} (first : BuildsArguments elements middle)
    (moves : Moves reader middle) (spaced : reader.Spaced)
    (ranRest : (arguments fuel depth).run middle = (rest, later))
    (build : ArgumentsBuild (arguments fuel depth)) :
    BuildsArguments (elements ++ Argument.elementsOf rest) later :=
  (first.behind (.ofRan (moves_arguments fuel depth middle) ranRest)).append
    (build ranRest (moves.spaced spaced))

/-- A name test in front of the arguments that are read next. -/
theorem named_build {fuel depth : Nat} {leaf : Leaf} {found : List Argument}
    (ran : (do
      let test ← nameTest leaf
      return Argument.name test :: (← arguments fuel depth)).run reader = (found, later))
    (spaced : reader.Spaced) (next : reader.rest.head? = some leaf)
    (starts : leaf.kind.startsNameTest = true) (build : ArgumentsBuild (arguments fuel depth)) :
    BuildsArguments (Argument.elementsOf found) later := by
  obtain ⟨test, middle, ranTest, ran⟩ := ran_bind ran
  obtain ⟨rest, final, ranRest, ran⟩ := ran_bind ran
  obtain ⟨rfl, rfl⟩ := ran_pure ran
  have builds := nameTest_builds ranTest spaced next starts
  have first := BuildsArguments.one (.ofNode builds (by decide))
  have moves := moves_nameTest leaf reader (rest_ne_nil_of_head next)
  exact first.more (.ofRan moves ranTest) spaced ranRest build

/-- By induction on the fuel: what stands inside a nested kind test is read at one depth more, and
what follows it at the same depth. -/
theorem arguments_build (fuel depth : Nat) : ArgumentsBuild (arguments fuel depth) := by
  induction fuel generalizing depth with
  | zero =>
      intro reader later found ran _
      obtain ⟨rfl, -⟩ := ran_pure ran
      exact .nothing
  | succ fuel ih =>
      intro reader later found ran spaced
      simp only [arguments, run_ifEnded] at ran
      split at ran
      · obtain ⟨rfl, -⟩ := ran_pure ran
        exact .nothing
      simp only [lookFor_then] at ran
      split at ran
      · obtain ⟨rfl, -⟩ := ran_pure ran
        exact .nothing
      rename_i leaf inView
      have next := (head_of_filter (!·.endsArguments) inView).1
      have there : reader.spend.spend.rest ≠ [] := rest_ne_nil_of_head next
      have looked : reader.spend.spend.Spaced := spaced.spend.spend
      simp only [look_then] at ran
      split at ran
      · rename_i isName
        simp only [secondIf_then] at ran
        split at ran
        · rename_i opener after
          obtain ⟨second, isOpener⟩ := head_of_second after
          obtain ⟨test, middle, ranTest, ran⟩ := ran_bind ran
          obtain ⟨rest, final, ranRest, ran⟩ := ran_bind ran
          obtain ⟨rfl, rfl⟩ := ran_pure ran
          have builds := kindTestWith_builds ranTest looked (ih (depth + 1))
            (moves_arguments fuel (depth + 1)) next second isName isOpener
          have first := BuildsArguments.one (.ofOption builds (by decide))
          have moves := moves_kindTestWith depth leaf opener reader.spend.spend there
            (rest_ne_nil_of_second after) (moves_arguments fuel (depth + 1))
          rw [Argument.elementsOf_toArgument]
          exact first.more (.ofRan moves ranTest) looked ranRest (ih depth)
        · exact named_build ran looked next (by rw [isName]; rfl) (ih depth)
      · rename_i isStar
        exact named_build ran looked next (by rw [isStar]; rfl) (ih depth)
      iterate 3
        rename_i isMark
        simp only [advance_then] at ran
        obtain ⟨rest, final, ranRest, ran⟩ := ran_bind ran
        obtain ⟨rfl, rfl⟩ := ran_pure ran
        have isArgument : (ElementKind.token leaf.kind).isArgument = true := by rw [isMark]; rfl
        exact (mark_builds (looked.seen next) isArgument).more (.advance .done there) looked
          ranRest (ih depth)
      · obtain ⟨argument, middle, ranStray, ran⟩ := ran_bind ran
        obtain ⟨rest, final, ranRest, ran⟩ := ran_bind ran
        obtain ⟨rfl, rfl⟩ := ran_pure ran
        have moves := moves_stray leaf _ there
        exact (stray_builds ranStray looked next).more (.ofRan moves ranStray) looked ranRest
          (ih depth)

/-! ## Predicates -/

/-- What a reading of the contents of a predicate builds, wherever it starts. -/
def ItemsBuild (reading : Reading (List PredicateItem)) : Prop :=
  ∀ {reader later : Reader} {items : List PredicateItem},
    reading.run reader = (items, later) → reader.Spaced →
      BuildsAll (·.isItem = true) (PredicateItem.elementsOf items) later

theorem predicateWith_builds {inner : Reading (List PredicateItem)} {depth : Nat}
    {opener : Leaf} {predicate : Option Predicate}
    (ran : (predicateWith inner depth opener).run reader = (predicate, later))
    (spaced : reader.Spaced) (build : ItemsBuild inner)
    (moves : ∀ reader, Moves reader (inner.run reader).2)
    (next : reader.rest.head? = some opener) (isOpener : opener.kind = .bracketOpen) :
    ∀ given ∈ predicate, BuildsNode .predicate given.elements later := by
  have seen := spaced.seen next
  rw [predicateWith, run_bind] at ran
  rcases run_mayOpen depth reader with opened | refused
  · simp only [opened, if_true, look_then, advance_then] at ran
    obtain ⟨items, middle, ranInner, ran⟩ := ran_bind ran
    obtain ⟨closed, final, ranClose, ran⟩ := ran_bind ran
    obtain ⟨rfl, rfl⟩ := ran_pure ran
    have inside : reader.spend.step.Spaced := spaced.spend.step
    have built := build ranInner inside
    obtain ⟨closer, closerRow, isCloser, ends⟩ := close_row ranClose (inside.after moves ranInner)
    have row : rowOf (opener.bare.elements ++ (PredicateItem.elementsOf items ++
          optionElements Leaf.elements closed)) =
        .token .bracketOpen :: (rowOf (PredicateItem.elementsOf items) ++ closer.toList) := by
      simp only [rowOf_append, seen.bare.rowOf_elements, closerRow, ← isOpener]
      rfl
    rintro _ ⟨rfl⟩
    rw [Predicate.elements_mk]
    apply BuildsNode.group rfl seen.blanks
    · have items := built.toBuilds.behind (.ofRan (moves_close _ _ _ _ rfl _) ranClose)
      exact (Builds.tokens (by simp)).append (items.append (.tokens (by simp)))
    · rw [row]
      exact .predicate built.row isCloser
    · rintro ⟨⟩
    · intro clean
      rw [row, ends clean]
      simp [List.getLast?_cons]
  · simp only [refused, Bool.false_eq_true, if_false] at ran
    obtain ⟨rfl, -⟩ := ran_pure ran
    rintro _ ⟨⟩

/-- Contents of a predicate in front of those that are read next. -/
theorem BuildsAll.more {fuel depth : Nat} {middle : Reader} {elements : List Element}
    {rest : List PredicateItem} (first : BuildsAll (·.isItem = true) elements middle)
    (moves : Moves reader middle) (spaced : reader.Spaced)
    (ranRest : (predicateItems fuel depth).run middle = (rest, later))
    (build : ItemsBuild (predicateItems fuel depth)) :
    BuildsAll (·.isItem = true) (elements ++ PredicateItem.elementsOf rest) later :=
  .append (first.behind (.ofRan (moves_predicateItems fuel depth middle) ranRest))
    (build ranRest (moves.spaced spaced))

theorem predicateItems_build (fuel depth : Nat) : ItemsBuild (predicateItems fuel depth) := by
  induction fuel generalizing depth with
  | zero =>
      intro reader later found ran _
      obtain ⟨rfl, -⟩ := ran_pure ran
      exact .nothing
  | succ fuel ih =>
      intro reader later found ran spaced
      simp only [predicateItems, run_ifEnded] at ran
      split at ran
      · obtain ⟨rfl, -⟩ := ran_pure ran
        exact .nothing
      simp only [look_then] at ran
      split at ran
      · obtain ⟨rfl, -⟩ := ran_pure ran
        exact .nothing
      rename_i leaf next
      have there : reader.spend.rest ≠ [] := rest_ne_nil_of_head next
      split at ran
      · obtain ⟨rfl, -⟩ := ran_pure ran
        exact .nothing
      · rename_i isOpener
        obtain ⟨predicate, middle, ranPredicate, ran⟩ := ran_bind ran
        obtain ⟨rest, final, ranRest, ran⟩ := ran_bind ran
        obtain ⟨rfl, rfl⟩ := ran_pure ran
        have builds := predicateWith_builds ranPredicate spaced.spend (ih (depth + 1))
          (moves_predicateItems fuel (depth + 1)) next isOpener
        have isItem : BuildsAll (·.isItem = true) (optionElements Predicate.elements predicate)
            middle := .one (.ofOption builds rfl)
        have moves := moves_predicateWith depth leaf reader.spend there
          (moves_predicateItems fuel (depth + 1))
        rw [PredicateItem.elementsOf_toItem]
        exact BuildsAll.more isItem (.ofRan moves ranPredicate) spaced.spend ranRest (ih depth)
      · rename_i noCloser noOpener
        rw [advance_then] at ran
        obtain ⟨rest, final, ranRest, ran⟩ := ran_bind ran
        obtain ⟨rfl, rfl⟩ := ran_pure ran
        have isItem : BuildsAll (·.isItem = true) leaf.elements reader.spend.step := by
          refine ⟨.tokens (by simp), ?_⟩
          simpa [(spaced.seen next).rowOf_elements, ElementKind.isItem]
            using ⟨noOpener, noCloser⟩
        exact BuildsAll.more isItem (.advance .done there) spaced.spend ranRest (ih depth)

theorem predicates_build {fuel : Nat} {found : List Predicate}
    (ran : (predicates fuel).run reader = (found, later)) (spaced : reader.Spaced) :
    BuildsAll (· = .node .predicate) (found.flatMap Predicate.elements) later := by
  induction fuel generalizing reader later found with
  | zero =>
      obtain ⟨rfl, -⟩ := ran_pure ran
      exact .nothing
  | succ fuel ih =>
      simp only [predicates, run_ifHalted] at ran
      split at ran
      · obtain ⟨rfl, -⟩ := ran_pure ran
        exact .nothing
      simp only [lookFor_then] at ran
      split at ran
      · obtain ⟨rfl, -⟩ := ran_pure ran
        exact .nothing
      rename_i opener inView
      obtain ⟨next, isOpener⟩ := head_of_filter (fun other => decide (other = .bracketOpen)) inView
      obtain ⟨predicate, middle, ranPredicate, ran⟩ := ran_bind ran
      obtain ⟨rest, final, ranRest, ran⟩ := ran_bind ran
      obtain ⟨rfl, rfl⟩ := ran_pure ran
      have builds := predicateWith_builds ranPredicate spaced.spend (predicateItems_build fuel 1)
        (moves_predicateItems fuel 1) next (of_decide_eq_true isOpener)
      have first : BuildsAll (· = .node .predicate) (optionElements Predicate.elements predicate)
          middle := .one (.ofOption builds rfl)
      have moves := Moves.ofRan (moves_predicateWith 0 opener reader.spend
        (rest_ne_nil_of_filter inView) (moves_predicateItems fuel 1)) ranPredicate
      rw [flatMap_toList_append]
      exact .append (first.behind (.ofRan (moves_predicates fuel middle) ranRest))
        (ih ranRest (moves.spaced spaced.spend))

/-! ## Steps -/

theorem nodeTest_builds {fuel : Nat} {context : String} {found : Option NodeTest}
    (ran : (nodeTest fuel context).run reader = (found, later)) (spaced : reader.Spaced) :
    BuildsOne (fun kind => kind = .node .nameTest ∨ kind = .node .kindTest)
      (optionElements NodeTest.elements found) later := by
  simp only [nodeTest, look_then] at ran
  split at ran
  · rw [reportHere_then] at ran
    obtain ⟨rfl, -⟩ := ran_pure ran
    exact .nothing
  rename_i leaf next
  split at ran
  · rename_i isName
    simp only [secondIf_then] at ran
    split at ran
    · rename_i opener after
      obtain ⟨second, isOpener⟩ := head_of_second after
      obtain ⟨test, middle, ranTest, ran⟩ := ran_bind ran
      obtain ⟨rfl, rfl⟩ := ran_pure ran
      rw [optionElements_map]
      exact .ofOption (kindTestWith_builds ranTest spaced.spend (arguments_build fuel 1)
        (moves_arguments fuel 1) next second isName isOpener) (.inr rfl)
    · obtain ⟨test, middle, ranTest, ran⟩ := ran_bind ran
      obtain ⟨rfl, rfl⟩ := ran_pure ran
      exact .ofNode (nameTest_builds ranTest spaced.spend next (by rw [isName]; rfl)) (.inl rfl)
  · rename_i isStar
    obtain ⟨test, middle, ranTest, ran⟩ := ran_bind ran
    obtain ⟨rfl, rfl⟩ := ran_pure ran
    exact .ofNode (nameTest_builds ranTest spaced.spend next (by rw [isStar]; rfl)) (.inl rfl)
  · rw [reportHere_then] at ran
    obtain ⟨rfl, -⟩ := ran_pure ran
    exact .nothing

/-- A step with an axis in front of its node test, either of which may be missing. -/
theorem tested_builds {mark : Option AxisMark} {test : Option NodeTest}
    (isMark : BuildsOne (fun kind => kind = .token .at ∨ kind = .node .axisSpec)
      (optionElements AxisMark.elements mark) later)
    (isTest : BuildsOne (fun kind => kind = .node .nameTest ∨ kind = .node .kindTest)
      (optionElements NodeTest.elements test) later) :
    BuildsRow StepRow (StepBody.tested mark test).elements later := by
  obtain ⟨markKind, markRow, markAllowed⟩ := isMark.row
  obtain ⟨testKind, testRow, testAllowed⟩ := isTest.row
  refine ⟨isMark.toBuilds.append isTest.toBuilds, ?_⟩
  rw [StepBody.elements, rowOf_append, markRow, testRow]
  exact .tested markAllowed testAllowed

/-- A step that starts with its node test. -/
theorem unmarked_builds {fuel : Nat} {context : String} {body : StepBody}
    (ran : (do return StepBody.tested .none (← nodeTest fuel context)).run reader = (body, later))
    (spaced : reader.Spaced) : BuildsRow StepRow body.elements later := by
  obtain ⟨test, middle, ranTest, ran⟩ := ran_bind ran
  obtain ⟨rfl, rfl⟩ := ran_pure ran
  exact tested_builds .nothing (nodeTest_builds ranTest spaced)

theorem stepBody_builds {fuel : Nat} {body : StepBody}
    (ran : (stepBody fuel).run reader = (body, later)) (spaced : reader.Spaced) :
    BuildsRow StepRow body.elements later := by
  simp only [stepBody, look_then] at ran
  split at ran
  · exact unmarked_builds ran spaced.spend
  rename_i leaf next
  have seen := spaced.seen next
  have dots (isDots : leaf.kind = .dot ∨ leaf.kind = .dotDot) :
      BuildsRow StepRow (StepBody.abbreviated leaf).elements reader.spend.step := by
    refine ⟨.tokens (by simp [StepBody.elements]), ?_⟩
    rw [StepBody.elements, seen.rowOf_elements]
    exact .abbreviated isDots
  split at ran
  · rename_i isDot
    rw [advance_then] at ran
    obtain ⟨rfl, rfl⟩ := ran_pure ran
    exact dots (.inl isDot)
  · rename_i isDotDot
    rw [advance_then] at ran
    obtain ⟨rfl, rfl⟩ := ran_pure ran
    exact dots (.inr isDotDot)
  · rename_i isAt
    rw [advance_then] at ran
    obtain ⟨test, middle, ranTest, ran⟩ := ran_bind ran
    obtain ⟨rfl, rfl⟩ := ran_pure ran
    refine tested_builds ⟨.tokens (by simp [optionElements, AxisMark.elements]),
      some (.token .at), ?_, by simp⟩ (nodeTest_builds ranTest spaced.spend.step)
    rw [optionElements, AxisMark.elements, seen.rowOf_elements, isAt]
    rfl
  · rename_i isName
    simp only [secondIf_then] at ran
    split at ran
    · rename_i colons after
      obtain ⟨second, isColons⟩ := head_of_second after
      have seenColons : colons.Seen := spaced.spend.step.seen (by simpa using second)
      simp only [advance_then] at ran
      obtain ⟨test, middle, ranTest, ran⟩ := ran_bind ran
      obtain ⟨rfl, rfl⟩ := ran_pure ran
      have axisSpec : BuildsNode .axisSpec (AxisMark.named leaf colons).elements middle := by
        have blank : AreBlank [] := by simp [AreBlank]
        apply BuildsNode.plain rfl blank (.tokens (by simp))
        rw [rowOf_append, seen.rowOf_elements, seenColons.rowOf_elements, isName, isColons]
        exact .axisSpec
      exact tested_builds (.ofNode axisSpec (.inr rfl))
        (nodeTest_builds ranTest spaced.spend.step.step)
    · exact unmarked_builds ran spaced.spend
  · exact unmarked_builds ran spaced.spend

theorem step_builds {fuel : Nat} {found : Step} (ran : (step fuel).run reader = (found, later))
    (spaced : reader.Spaced) : BuildsNode .step found.elements later := by
  rw [step, takeBlanks_then, offset_then] at ran
  obtain ⟨body, middle, ranBody, ran⟩ := ran_bind ran
  obtain ⟨predicates, final, ranPredicates, ran⟩ := ran_bind ran
  obtain ⟨rfl, rfl⟩ := ran_pure ran
  have placed := spaced.placeBlanks
  have isBody := stepBody_builds ranBody placed
  have arePredicates :=
    predicates_build ranPredicates (placed.after (moves_stepBody fuel) ranBody)
  have moves := Moves.ofRan (moves_predicates fuel middle) ranPredicates
  apply BuildsNode.plain rfl spaced.frontBlanks
    ((isBody.toBuilds.behind moves).append arePredicates.toBuilds)
  rw [rowOf_append]
  exact .step isBody.row arePredicates.row

theorem stepIfAny_builds {fuel : Nat} {found : Option Step}
    (ran : (stepIfAny fuel).run reader = (found, later)) (spaced : reader.Spaced) :
    ∀ given ∈ found, BuildsNode .step given.elements later := by
  simp only [stepIfAny, lookFor_then] at ran
  split at ran
  · obtain ⟨given, middle, ranStep, ran⟩ := ran_bind ran
    obtain ⟨rfl, rfl⟩ := ran_pure ran
    rintro _ ⟨rfl⟩
    exact step_builds ranStep spaced.spend
  · rw [run_ifEnded] at ran
    split at ran <;>
    · rw [reportHere_then] at ran
      obtain ⟨rfl, -⟩ := ran_pure ran
      rintro _ ⟨⟩

/-! ## Paths -/

/-- A step in front of separators and steps that may follow one. -/
theorem step_parts_build {fuel : Nat} {found : Option Step} {middle : Reader}
    {parts : List PathPart} (ranStep : (stepIfAny fuel).run reader = (found, middle))
    (spaced : reader.Spaced) (moves : Moves middle later)
    (rest : BuildsRow (fun row => PathRow (.node .step :: row))
      (parts.flatMap PathPart.elements) later) :
    BuildsRow PathRow
      (((found.map PathPart.step).toList ++ parts).flatMap PathPart.elements) later := by
  have built : BuildsOne (· = .node .step) (optionElements Step.elements found) middle :=
    .ofOption (stepIfAny_builds ranStep spaced) rfl
  have first := built.behind moves
  obtain ⟨kind, stepRow, isStep⟩ := first.row
  rw [flatMap_toList_append, optionElements_map]
  refine ⟨first.toBuilds.append rest.toBuilds, ?_⟩
  rw [rowOf_append]
  show PathRow (rowOf (optionElements Step.elements found) ++ _)
  rw [stepRow]
  exact rest.row.ifStep isStep

/-- A separator in front of separators and steps. -/
theorem separator_parts_build {separator : Leaf} {parts : List PathPart} (seen : separator.Seen)
    (separates : separator.kind.isSeparator = true)
    (rest : BuildsRow PathRow (parts.flatMap PathPart.elements) later) :
    BuildsRow (fun row => PathRow row ∧ PathRow (.node .step :: row))
      ((.separator separator :: parts).flatMap PathPart.elements) later := by
  have builds := (Builds.tokens separator.nodesOf_elements).append rest.toBuilds
  have parts := rest.row.separator separates
  refine ⟨builds, ?_⟩
  rw [List.flatMap_cons, PathPart.elements, rowOf_append, seen.rowOf_elements]
  exact ⟨parts, parts.step_separator⟩

theorem laterParts_build {fuel : Nat} {parts : List PathPart}
    (ran : (laterParts fuel).run reader = (parts, later)) (spaced : reader.Spaced) :
    BuildsRow (fun row => PathRow (.node .step :: row)) (parts.flatMap PathPart.elements)
      later := by
  induction fuel generalizing reader later parts with
  | zero =>
      obtain ⟨rfl, -⟩ := ran_pure ran
      exact ⟨.tokens nodesOf_nil, .step⟩
  | succ fuel ih =>
      simp only [laterParts, run_ifHalted] at ran
      split at ran
      · obtain ⟨rfl, -⟩ := ran_pure ran
        exact ⟨.tokens nodesOf_nil, .step⟩
      simp only [lookFor_then] at ran
      split at ran
      · obtain ⟨rfl, -⟩ := ran_pure ran
        exact ⟨.tokens nodesOf_nil, .step⟩
      rename_i separator inView
      obtain ⟨next, separates⟩ := head_of_filter TokenKind.isSeparator inView
      rw [advance_then] at ran
      obtain ⟨found, middle, ranStep, ran⟩ := ran_bind ran
      obtain ⟨rest, final, ranRest, ran⟩ := ran_bind ran
      obtain ⟨rfl, rfl⟩ := ran_pure ran
      have onward : reader.spend.step.Spaced := spaced.spend.step
      have others := ih ranRest (onward.after (moves_stepIfAny fuel) ranStep)
      have moves := Moves.ofRan (moves_laterParts fuel middle) ranRest
      have parts := separator_parts_build (spaced.seen next) separates
        (step_parts_build ranStep onward moves others)
      exact ⟨parts.toBuilds, parts.row.2⟩

theorem partsFromStep_build {fuel : Nat} {parts : List PathPart}
    (ran : (partsFromStep fuel).run reader = (parts, later)) (spaced : reader.Spaced) :
    BuildsRow PathRow (parts.flatMap PathPart.elements) later := by
  obtain ⟨found, middle, ranStep, ran⟩ := ran_bind ran
  obtain ⟨rest, final, ranRest, ran⟩ := ran_bind ran
  obtain ⟨rfl, rfl⟩ := ran_pure ran
  have others := laterParts_build ranRest (spaced.after (moves_stepIfAny fuel) ranStep)
  exact step_parts_build ranStep spaced (.ofRan (moves_laterParts fuel middle) ranRest) others

theorem pathParts_build {fuel : Nat} {parts : List PathPart}
    (ran : (pathParts fuel).run reader = (parts, later)) (spaced : reader.Spaced) :
    BuildsRow PathRow (parts.flatMap PathPart.elements) later := by
  simp only [pathParts, lookFor_then] at ran
  split at ran
  · exact partsFromStep_build ran spaced.spend
  · rename_i separator inView
    obtain ⟨next, separates⟩ := head_of_filter TokenKind.isSeparator inView
    have following {others : List PathPart} {final : Reader}
        (rest : BuildsRow PathRow (others.flatMap PathPart.elements) final) :
        BuildsRow PathRow ((.separator separator :: others).flatMap PathPart.elements) final :=
      have parts := separator_parts_build (spaced.seen next) separates rest
      ⟨parts.toBuilds, parts.row.1⟩
    simp only [look_then, advance_then, ended_then] at ran
    split at ran
    · obtain ⟨rfl, -⟩ := ran_pure ran
      exact following ⟨.tokens nodesOf_nil, .nil⟩
    · obtain ⟨parts, middle, ranParts, ran⟩ := ran_bind ran
      obtain ⟨rfl, rfl⟩ := ran_pure ran
      exact following (partsFromStep_build ranParts spaced.spend.spend.step)

theorem path_builds {fuel : Nat} {found : Path} (ran : (path fuel).run reader = (found, later))
    (spaced : reader.Spaced) : BuildsNode .path found.elements later := by
  rw [path, takeBlanks_then, offset_then] at ran
  obtain ⟨parts, middle, ranParts, ran⟩ := ran_bind ran
  obtain ⟨rfl, rfl⟩ := ran_pure ran
  have built := pathParts_build ranParts spaced.placeBlanks
  exact BuildsNode.plain rfl spaced.frontBlanks built.toBuilds (.path built.row)

/-! ## Whole texts -/

/-- What is left over is a node of tokens alone. -/
theorem surplus_builds {found : Surplus} (ran : surplus.run reader = (found, later))
    (spaced : reader.Spaced) (there : reader.rest ≠ []) :
    BuildsNode .error found.elements later := by
  rw [surplus, takeBlanks_then, offset_then, get_then] at ran
  obtain ⟨-, middle, -, ran⟩ := ran_bind ran
  obtain ⟨rfl, -⟩ := ran_pure ran
  have placed := spaced.placeBlanks
  have row := rowOf_leaves fun leaf member =>
    ⟨placed.blanks leaf member, placed.visible leaf member⟩
  apply BuildsNode.plain rfl spaced.frontBlanks (.tokens (nodesOf_flatMap_leaves _))
  rw [row]
  apply NodeKind.Allows.error
  · rw [Ne, List.map_eq_nil_iff, ← List.length_eq_zero_iff, Reader.length_rest_placeBlanks,
      List.length_eq_zero_iff]
    exact there
  · intro kind member
    obtain ⟨leaf, -, rfl⟩ := List.mem_map.mp member
    exact ⟨leaf.kind, rfl⟩

theorem surplusIfAny_builds {found : Option Surplus}
    (ran : surplusIfAny.run reader = (found, later)) (spaced : reader.Spaced) :
    ∀ given ∈ found, BuildsNode .error given.elements later := by
  rw [surplusIfAny, run_ifEnded] at ran
  split at ran
  · obtain ⟨rfl, -⟩ := ran_pure ran
    rintro _ ⟨⟩
  · rename_i more
    have there : reader.rest ≠ [] := by
      intro empty
      simp [Reader.hasEnded, empty] at more
    rw [look_then, reportHere_then] at ran
    obtain ⟨given, middle, ranSurplus, ran⟩ := ran_bind ran
    obtain ⟨rfl, rfl⟩ := ran_pure ran
    rintro _ ⟨rfl⟩
    exact surplus_builds ranSurplus ⟨spaced.blanks, spaced.visible, spaced.trail⟩ there

/-- Nothing is left over at the end of the text. -/
theorem surplusIfAny_ended {found : Option Surplus}
    (ran : surplusIfAny.run reader = (found, later)) (atEnd : reader.hasEnded = true) :
    found = none := by
  rw [surplusIfAny, run_ifEnded, if_pos atEnd] at ran
  exact (ran_pure ran).1.symm

theorem root_builds {fuel : Nat} {found : Root} (ran : (root fuel).run reader = (found, later))
    (spaced : reader.Spaced) : BuildsNode .root [found.element] later := by
  rw [root] at ran
  obtain ⟨foundPath, middle, ranPath, ran⟩ := ran_bind ran
  obtain ⟨foundSurplus, final, ranSurplus, ran⟩ := ran_bind ran
  rw [get_then] at ran
  obtain ⟨rfl, rfl⟩ := ran_pure ran
  have onward := spaced.after (moves_pathIfAny fuel) ranPath
  have blank : AreBlank [] := by simp [AreBlank]
  have trailing := rowOf_blankElements (onward.after moves_surplusIfAny ranSurplus).trail
  rw [pathIfAny, run_ifEnded] at ranPath
  split at ranPath
  · rename_i atEnd
    rw [reportHere_then] at ranPath
    obtain ⟨rfl, rfl⟩ := ran_pure ranPath
    -- The report that a path is missing leaves the reader at the end.
    obtain rfl := surplusIfAny_ended ranSurplus atEnd
    apply BuildsNode.plain rfl blank (.tokens (by simp [optionElements]))
    simp only [optionElements, List.nil_append, trailing]
    exact .blank
  · obtain ⟨given, between, ranGiven, ranPath⟩ := ran_bind ranPath
    obtain ⟨rfl, rfl⟩ := ran_pure ranPath
    have builtPath := (path_builds ranGiven spaced).behind
      (.ofRan (moves_surplusIfAny _) ranSurplus)
    have builtSurplus : BuildsOne (· = .node .error)
        (optionElements Surplus.elements foundSurplus) final :=
      .ofOption (surplusIfAny_builds ranSurplus onward) rfl
    obtain ⟨kind, surplusRow, isError⟩ := builtSurplus.row
    apply BuildsNode.plain rfl blank
    · exact (builtPath.toBuilds.append builtSurplus.toBuilds).append (.tokens (by simp))
    · rw [rowOf_append, rowOf_append, trailing, surplusRow, List.append_nil, optionElements,
        builtPath.row]
      exact .root isError

end Tree

/-! ## Texts -/

namespace ParsedPath

/-- The tree of a text that was parsed, malformed or not, fits the schema, and every kind test and
predicate in it is closed unless some error was reported. -/
theorem tree_fits {limits : Tree.Limits} {text : String} {parsed : ParsedPath}
    (isParsed : parse limits text = .ok parsed) :
    (∀ node ∈ parsed.root.element.nodes, node.Fits) ∧
      ((∃ node ∈ parsed.root.element.nodes, ¬ node.Closed) → parsed.report.hasErrors = true) := by
  have ran : Tree.readText limits text =
    ((Tree.readText limits text).1, (Tree.readText limits text).2) := rfl
  have built := Tree.root_builds ran (Tree.Reader.spaced_ofText limits text)
  rw [← root_eq_readText isParsed |>.1] at built
  constructor
  · simpa using built.fits
  · rintro ⟨node, member, isOpen⟩
    by_contra noErrors
    have valid : parsed.isValid = true := by simpa [isValid] using noErrors
    exact isOpen (built.closed (clean_of_parse isParsed valid) node (by simpa using member))

/-- A kind test that holds a stray token and is never closed, and a predicate that fits nowhere. -/
theorem tree_fits_malformed :
    ∃ parsed, parse .standard " a( .,b /[ c ]" = .ok parsed ∧
      (∀ node ∈ parsed.root.element.nodes, node.Fits) ∧
      (∃ node ∈ parsed.root.element.nodes, ¬ node.Closed) ∧ parsed.report.hasErrors = true := by
  obtain ⟨parsed, isParsed, decided⟩ := exists_of_toOption
    (by decide +kernel : (parse .standard " a( .,b /[ c ]").toOption.map (fun parsed =>
      decide (∃ node ∈ parsed.root.element.nodes, ¬ node.Closed)) = some true)
  have isOpen := of_decide_eq_true decided
  obtain ⟨fits, reported⟩ := tree_fits isParsed
  exact ⟨parsed, isParsed, fits, isOpen, reported isOpen⟩

end ParsedPath

end PathCover
