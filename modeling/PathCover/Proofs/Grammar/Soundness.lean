import PathCover.Proofs.Grammar.Shows
import PathCover.Proofs.Tree.Moves

/-!
# Clean readings are derivations

A reading is clean if nothing was reported and no limit was hit up to its end.  What a part of the
grammar reads cleanly derives from the rule of that part, and its tree shows the derivation.
-/

namespace PathCover.Tree

open Grammar (Sign Separator LaterStep)

/-- A reader that has reported nothing and hit no limit. -/
structure Reader.Clean (reader : Reader) : Prop where
  silent : reader.reported = none
  within : reader.exceeded = none

/-- A move never makes a reader clean again. -/
theorem Moves.clean {first second : Reader} (moves : Moves first second)
    (clean : second.Clean) : first.Clean := by
  induction moves with
  | done => exact clean
  | look _ ih => exact ih ⟨clean.silent, clean.within⟩
  | advance _ _ ih =>
      exact ih ⟨by simpa using clean.silent, Reader.exceeded_step _ clean.within⟩
  | exceed _ _ _ => exact absurd clean.within (Reader.exceeded_exceed _ _)
  | placeBlanks _ ih => exact ih ⟨by simpa using clean.silent, by simpa using clean.within⟩
  | note _ place diagnostic _ _ => cases clean.silent

variable {reader later : Reader}

/-- What is clean at the end of a reading was clean before. -/
theorem Reader.Clean.before {α : Type} {reading : Reading α} {value : α} (clean : later.Clean)
    (moves : ∀ reader, Moves reader (reading.run reader).2)
    (ran : reading.run reader = (value, later)) : reader.Clean :=
  (Moves.ofRan (moves reader) ran).clean clean

/-- A leaf as a terminal of a class that its kind belongs to. -/
def Leaf.terminal {admitted : TokenKind → Bool} (leaf : Leaf)
    (admits : admitted leaf.kind = true) : Grammar.Terminal admitted := ⟨leaf.lexeme, admits⟩

/-- A leaf as a terminal of its own kind. -/
def Leaf.sign {kind : TokenKind} (leaf : Leaf) (same : leaf.kind = kind) : Sign kind :=
  ⟨leaf.lexeme, decide_eq_true same⟩

theorem nameTest_sound {first : Leaf} {test : NameTest}
    (ran : (nameTest first).run reader = (test, later)) (clean : later.Clean)
    (next : reader.rest.head? = some first) (starts : first.kind.startsNameTest = true) :
    ∃ derived : Grammar.NameTest, test.Shows derived ∧
      reader.lexemes = derived.lexemes ++ later.lexemes := by
  have consumed := reader.lexemes_of_head next
  simp only [nameTest, run_bind, run_advance] at ran
  rcases eat_cases .colon reader.step with ⟨colon, nextColon, isColon, ate⟩ | ate
  · have consumedColon := reader.step.lexemes_of_head nextColon
    simp only [ate, run_bind, run_lookFor] at ran
    split at ran
    · rename_i second found
      obtain ⟨nextSecond, startsSecond⟩ := head_of_filter TokenKind.startsNameTest found
      have consumedSecond := Reader.lexemes_of_head _ nextSecond
      simp only [run_bind, run_advance] at ran
      obtain ⟨rfl, rfl⟩ := ran_pure ran
      refine ⟨⟨first.terminal starts, some (colon.sign isColon, second.terminal startsSecond)⟩,
        .qualified rfl rfl rfl, ?_⟩
      simp only [Reader.lexemes_step, Reader.lexemes_spend] at consumedColon consumedSecond ⊢
      rw [← consumed, ← consumedColon, ← consumedSecond]
      rfl
    · simp only [run_bind] at ran
      obtain ⟨rfl, rfl⟩ := ran_pure ran
      cases clean.silent
  · simp only [ate] at ran
    obtain ⟨rfl, rfl⟩ := ran_pure ran
    refine ⟨⟨first.terminal starts, none⟩, .single rfl, ?_⟩
    simp only [Reader.lexemes_spend, Reader.lexemes_step]
    exact consumed.symm

theorem close_sound {closer : TokenKind} {kind : DiagnosticKind} {detail : String}
    {opener : Token} {closed : Option Leaf}
    (ran : (close closer kind detail opener).run reader = (closed, later))
    (clean : later.Clean) :
    ∃ leaf : Leaf, leaf.kind = closer ∧ closed = some leaf ∧
      reader.lexemes = leaf.lexeme :: later.lexemes := by
  simp only [close, run_bind] at ran
  rcases eat_cases closer reader with ⟨leaf, next, same, ate⟩ | ate
  · have consumed := reader.lexemes_of_head next
    simp only [ate] at ran
    obtain ⟨rfl, rfl⟩ := ran_pure ran
    refine ⟨leaf, same, rfl, ?_⟩
    simp only [Reader.lexemes_step, Reader.lexemes_spend]
    exact consumed.symm
  · simp only [ate, run_bind] at ran
    obtain ⟨rfl, rfl⟩ := ran_pure ran
    cases clean.silent

/-- The arguments that a reading reads cleanly derive, each by itself. -/
def ArgumentsSound (reading : Reading (List Argument)) : Prop :=
  ∀ {reader later : Reader} {arguments : List Argument},
    reading.run reader = (arguments, later) → later.Clean →
      ∃ derived : List Grammar.Argument, List.Forall₂ Argument.Shows arguments derived ∧
        reader.lexemes = Grammar.Argument.lexemesOf derived ++ later.lexemes

theorem kindTestWith_sound {inner : Reading (List Argument)} {depth : Nat}
    {keyword opener : Leaf} {test : Option KindTest}
    (ran : (kindTestWith inner depth keyword opener).run reader = (test, later))
    (clean : later.Clean) (sound : ArgumentsSound inner)
    (next : reader.rest.head? = some keyword)
    (second : reader.rest.tail.head? = some opener) (isName : keyword.kind = .name)
    (isOpener : opener.kind = .parenOpen) :
    ∃ (given : KindTest) (derived : Grammar.KindTest), test = some given ∧
      given.Shows derived ∧ reader.lexemes = derived.lexemes ++ later.lexemes := by
  rw [kindTestWith, run_bind] at ran
  rcases run_mayOpen depth reader with opened | refused
  · simp only [opened, if_true, advance_then, look_then] at ran
    obtain ⟨found, middle, ranInner, ran⟩ := ran_bind ran
    obtain ⟨closed, final, ranClose, ran⟩ := ran_bind ran
    obtain ⟨rfl, rfl⟩ := ran_pure ran
    obtain ⟨closer, isCloser, rfl, consumedCloser⟩ := close_sound ranClose clean
    obtain ⟨derived, shown, consumedInner⟩ :=
      sound ranInner (clean.before (moves_close _ _ _ _ rfl) ranClose)
    refine ⟨_, ⟨keyword.sign isName, opener.sign isOpener, derived, closer.sign isCloser⟩, rfl,
      .nested rfl rfl shown rfl, ?_⟩
    have consumed := reader.lexemes_of_head next
    have consumedOpener := reader.step.lexemes_of_head (by simpa using second)
    simp only [Reader.lexemes_step, Reader.lexemes_spend] at consumedOpener consumedInner
    rw [← consumed, ← consumedOpener, consumedInner, consumedCloser]
    simp [Grammar.KindTest.lexemes, Grammar.KindTest.argument, Grammar.Argument.lexemes,
      Leaf.sign]
  · simp only [refused, Bool.false_eq_true, if_false] at ran
    obtain ⟨rfl, rfl⟩ := ran_pure ran
    exact absurd clean.within (Reader.exceeded_exceed _ _)

/-- A derived argument in front of derived arguments. -/
theorem arguments_cons {argument : Argument} {first : Grammar.Argument} {middle : Reader}
    (shown : argument.Shows first) (consumed : reader.lexemes = first.lexemes ++ middle.lexemes)
    {arguments : List Argument}
    (rest : ∃ derived : List Grammar.Argument, List.Forall₂ Argument.Shows arguments derived ∧
      middle.lexemes = Grammar.Argument.lexemesOf derived ++ later.lexemes) :
    ∃ derived : List Grammar.Argument,
      List.Forall₂ Argument.Shows (argument :: arguments) derived ∧
        reader.lexemes = Grammar.Argument.lexemesOf derived ++ later.lexemes := by
  obtain ⟨derived, shownRest, consumedRest⟩ := rest
  refine ⟨first :: derived, .cons shown shownRest, ?_⟩
  rw [consumed, consumedRest, Grammar.Argument.lexemesOf, List.append_assoc]

/-- A leaf that is an argument by itself in front of derived arguments. -/
theorem arguments_mark {leaf : Leaf} (single : Grammar.Argument)
    (next : reader.rest.head? = some leaf) (shown : (Argument.mark leaf).Shows single)
    (alone : single.lexemes = [leaf.lexeme]) {arguments : List Argument}
    (rest : ∃ derived : List Grammar.Argument, List.Forall₂ Argument.Shows arguments derived ∧
      reader.spend.spend.step.lexemes =
        Grammar.Argument.lexemesOf derived ++ later.lexemes) :
    ∃ derived : List Grammar.Argument,
      List.Forall₂ Argument.Shows (.mark leaf :: arguments) derived ∧
        reader.lexemes = Grammar.Argument.lexemesOf derived ++ later.lexemes := by
  refine arguments_cons shown ?_ rest
  rw [alone, ← reader.lexemes_of_head next]
  simp

/-- A stray token is reported. -/
theorem stray_unclean {leaf : Leaf} {argument : Argument}
    (ran : (stray leaf).run reader = (argument, later)) : ¬ later.Clean := by
  intro clean
  simp only [stray, look_then, reportHere_then, advance_then] at ran
  obtain ⟨rfl, rfl⟩ := ran_pure ran
  have silent := clean.silent
  simp at silent

theorem arguments_sound (fuel depth : Nat) : ArgumentsSound (arguments fuel depth) := by
  induction fuel generalizing depth with
  | zero =>
      intro reader later found ran _
      obtain ⟨rfl, rfl⟩ := ran_pure ran
      exact ⟨[], .nil, rfl⟩
  | succ fuel ih =>
      intro reader later found ran clean
      simp only [arguments, run_ifEnded] at ran
      split at ran
      · obtain ⟨rfl, rfl⟩ := ran_pure ran
        exact ⟨[], .nil, rfl⟩
      simp only [lookFor_then] at ran
      split at ran
      · obtain ⟨rfl, rfl⟩ := ran_pure ran
        exact ⟨[], .nil, rfl⟩
      rename_i leaf inView
      have next := (head_of_filter (!·.endsArguments) inView).1
      have consumed := reader.lexemes_of_head next
      simp only [look_then] at ran
      split at ran
      · rename_i isName
        simp only [secondIf_then] at ran
        split at ran
        · rename_i opener after
          obtain ⟨second, isOpener⟩ := head_of_second after
          obtain ⟨test, middle, ranTest, ran⟩ := ran_bind ran
          obtain ⟨rest, final, ranRest, ran⟩ := ran_bind ran
          obtain ⟨rfl, rfl⟩ := ran_pure ran
          obtain ⟨given, derived, rfl, shown, consumedTest⟩ := kindTestWith_sound ranTest
            (clean.before (moves_arguments fuel depth) ranRest) (ih (depth + 1)) next second
            isName isOpener
          exact arguments_cons shown consumedTest (ih depth ranRest clean)
        · obtain ⟨test, middle, ranTest, ran⟩ := ran_bind ran
          obtain ⟨rest, final, ranRest, ran⟩ := ran_bind ran
          obtain ⟨rfl, rfl⟩ := ran_pure ran
          obtain ⟨derived, shown, consumedTest⟩ := nameTest_sound ranTest
            (clean.before (moves_arguments fuel depth) ranRest) next (by rw [isName]; rfl)
          exact arguments_cons (.name shown) consumedTest (ih depth ranRest clean)
      · rename_i isStar
        obtain ⟨test, middle, ranTest, ran⟩ := ran_bind ran
        obtain ⟨rest, final, ranRest, ran⟩ := ran_bind ran
        obtain ⟨rfl, rfl⟩ := ran_pure ran
        obtain ⟨derived, shown, consumedTest⟩ := nameTest_sound ranTest
          (clean.before (moves_arguments fuel depth) ranRest) next (by rw [isStar]; rfl)
        exact arguments_cons (.name shown) consumedTest (ih depth ranRest clean)
      · rename_i isComma
        simp only [advance_then] at ran
        obtain ⟨rest, final, ranRest, ran⟩ := ran_bind ran
        obtain ⟨rfl, rfl⟩ := ran_pure ran
        exact arguments_mark (.comma (leaf.sign isComma)) next (.comma rfl) rfl
          (ih depth ranRest clean)
      · rename_i isQuestion
        simp only [advance_then] at ran
        obtain ⟨rest, final, ranRest, ran⟩ := ran_bind ran
        obtain ⟨rfl, rfl⟩ := ran_pure ran
        exact arguments_mark (.question (leaf.sign isQuestion)) next (.question rfl) rfl
          (ih depth ranRest clean)
      · rename_i isLiteral
        simp only [advance_then] at ran
        obtain ⟨rest, final, ranRest, ran⟩ := ran_bind ran
        obtain ⟨rfl, rfl⟩ := ran_pure ran
        exact arguments_mark (.literal (leaf.sign isLiteral)) next (.literal rfl) rfl
          (ih depth ranRest clean)
      · obtain ⟨argument, middle, ranStray, ran⟩ := ran_bind ran
        obtain ⟨rest, final, ranRest, ran⟩ := ran_bind ran
        obtain ⟨rfl, rfl⟩ := ran_pure ran
        exact absurd (clean.before (moves_arguments fuel depth) ranRest) (stray_unclean ranStray)

/-! ## Predicates -/

/-- What a reading of the contents of a predicate reads cleanly derives. -/
def ItemsSound (reading : Reading (List PredicateItem)) : Prop :=
  ∀ {reader later : Reader} {items : List PredicateItem},
    reading.run reader = (items, later) → later.Clean →
      ∃ derived : List Grammar.PredicateItem,
        reader.lexemes = Grammar.PredicateItem.lexemesOf derived ++ later.lexemes

theorem predicateWith_sound {inner : Reading (List PredicateItem)} {depth : Nat}
    {opener : Leaf} {predicate : Option Predicate}
    (ran : (predicateWith inner depth opener).run reader = (predicate, later))
    (clean : later.Clean) (sound : ItemsSound inner)
    (next : reader.rest.head? = some opener) (isOpener : opener.kind = .bracketOpen) :
    ∃ (given : Predicate) (derived : Grammar.Predicate), predicate = some given ∧
      reader.lexemes = derived.lexemes ++ later.lexemes := by
  rw [predicateWith, run_bind] at ran
  rcases run_mayOpen depth reader with opened | refused
  · simp only [opened, if_true, look_then, advance_then] at ran
    obtain ⟨found, middle, ranInner, ran⟩ := ran_bind ran
    obtain ⟨closed, final, ranClose, ran⟩ := ran_bind ran
    obtain ⟨rfl, rfl⟩ := ran_pure ran
    obtain ⟨closer, isCloser, rfl, consumedCloser⟩ := close_sound ranClose clean
    obtain ⟨derived, consumedInner⟩ :=
      sound ranInner (clean.before (moves_close _ _ _ _ rfl) ranClose)
    refine ⟨_, ⟨opener.sign isOpener, derived, closer.sign isCloser⟩, rfl, ?_⟩
    simp only [Reader.lexemes_step, Reader.lexemes_spend] at consumedInner
    rw [← reader.lexemes_of_head next, consumedInner, consumedCloser]
    simp [Grammar.Predicate.lexemes, Grammar.PredicateItem.lexemes, Leaf.sign]
  · simp only [refused, Bool.false_eq_true, if_false] at ran
    obtain ⟨rfl, rfl⟩ := ran_pure ran
    exact absurd clean.within (Reader.exceeded_exceed _ _)

theorem predicateItems_sound (fuel depth : Nat) : ItemsSound (predicateItems fuel depth) := by
  induction fuel generalizing depth with
  | zero =>
      intro reader later found ran _
      obtain ⟨rfl, rfl⟩ := ran_pure ran
      exact ⟨[], rfl⟩
  | succ fuel ih =>
      intro reader later found ran clean
      simp only [predicateItems, run_ifEnded] at ran
      split at ran
      · obtain ⟨rfl, rfl⟩ := ran_pure ran
        exact ⟨[], rfl⟩
      simp only [look_then] at ran
      split at ran
      · obtain ⟨rfl, rfl⟩ := ran_pure ran
        exact ⟨[], rfl⟩
      rename_i leaf next
      have consumed := reader.lexemes_of_head next
      split at ran
      · obtain ⟨rfl, rfl⟩ := ran_pure ran
        exact ⟨[], rfl⟩
      · rename_i isOpener
        obtain ⟨predicate, middle, ranPredicate, ran⟩ := ran_bind ran
        obtain ⟨rest, final, ranRest, ran⟩ := ran_bind ran
        obtain ⟨rfl, rfl⟩ := ran_pure ran
        obtain ⟨given, ⟨opener, items, closer⟩, rfl, consumedPredicate⟩ :=
          predicateWith_sound ranPredicate
            (clean.before (moves_predicateItems fuel depth) ranRest) (ih (depth + 1)) next
            isOpener
        obtain ⟨derived, consumedRest⟩ := ih depth ranRest clean
        refine ⟨.nested opener items closer :: derived, ?_⟩
        rw [Reader.lexemes_spend] at consumedPredicate
        rw [consumedPredicate, consumedRest, Grammar.PredicateItem.lexemesOf,
          List.append_assoc]
        rfl
      · rename_i notCloser notOpener
        simp only [advance_then] at ran
        obtain ⟨rest, final, ranRest, ran⟩ := ran_bind ran
        obtain ⟨rfl, rfl⟩ := ran_pure ran
        obtain ⟨derived, consumedRest⟩ := ih depth ranRest clean
        refine ⟨.plain (leaf.terminal (decide_eq_true ⟨notOpener, notCloser⟩)) :: derived, ?_⟩
        rw [Reader.lexemes_step, Reader.lexemes_spend] at consumedRest
        rw [← consumed, consumedRest]
        rfl

theorem predicates_sound {fuel : Nat} {found : List Predicate}
    (ran : (predicates fuel).run reader = (found, later)) (clean : later.Clean) :
    ∃ derived : List Grammar.Predicate, found.length = derived.length ∧
      reader.lexemes = derived.flatMap Grammar.Predicate.lexemes ++ later.lexemes := by
  induction fuel generalizing reader found with
  | zero =>
      obtain ⟨rfl, rfl⟩ := ran_pure ran
      exact ⟨[], rfl, rfl⟩
  | succ fuel ih =>
      simp only [predicates, run_ifHalted] at ran
      split at ran
      · obtain ⟨rfl, rfl⟩ := ran_pure ran
        exact ⟨[], rfl, rfl⟩
      simp only [lookFor_then] at ran
      split at ran
      · obtain ⟨rfl, rfl⟩ := ran_pure ran
        exact ⟨[], rfl, rfl⟩
      rename_i opener inView
      obtain ⟨next, isOpener⟩ := head_of_filter (fun other => decide (other = .bracketOpen)) inView
      obtain ⟨predicate, middle, ranPredicate, ran⟩ := ran_bind ran
      obtain ⟨rest, final, ranRest, ran⟩ := ran_bind ran
      obtain ⟨rfl, rfl⟩ := ran_pure ran
      obtain ⟨given, derived, rfl, consumed⟩ := predicateWith_sound ranPredicate
        (clean.before (moves_predicates fuel) ranRest) (predicateItems_sound fuel 1) next
        (by simpa using isOpener)
      obtain ⟨others, sameLength, consumedRest⟩ := ih ranRest
      refine ⟨derived :: others, by simp [sameLength], ?_⟩
      rw [Reader.lexemes_spend] at consumed
      rw [consumed, consumedRest, List.flatMap_cons, List.append_assoc]

/-! ## Steps -/

/-- A report leaves nothing clean behind. -/
theorem reportHere_unclean {α : Type} {kind : DiagnosticKind} {detail : Option String}
    {value result : α}
    (ran : (reportHere kind detail >>= fun _ => pure value).run reader = (result, later)) :
    ¬ later.Clean := by
  intro clean
  rw [reportHere_then] at ran
  obtain ⟨-, rfl⟩ := ran_pure ran
  cases clean.silent

theorem nodeTest_sound {fuel : Nat} {context : String} {found : Option NodeTest}
    (ran : (nodeTest fuel context).run reader = (found, later)) (clean : later.Clean) :
    ∃ (test : NodeTest) (derived : Grammar.NodeTest), found = some test ∧
      test.Shows derived ∧ reader.lexemes = derived.lexemes ++ later.lexemes := by
  simp only [nodeTest, look_then] at ran
  split at ran
  · exact absurd clean (reportHere_unclean ran)
  rename_i leaf next
  split at ran
  · rename_i isName
    simp only [secondIf_then] at ran
    split at ran
    · rename_i opener after
      obtain ⟨second, isOpener⟩ := head_of_second after
      obtain ⟨test, middle, ranTest, ran⟩ := ran_bind ran
      obtain ⟨rfl, rfl⟩ := ran_pure ran
      obtain ⟨given, derived, rfl, shown, consumed⟩ := kindTestWith_sound ranTest clean
        (arguments_sound fuel 1) next second isName isOpener
      exact ⟨_, .kind derived, rfl, .kind shown, consumed⟩
    · obtain ⟨test, middle, ranTest, ran⟩ := ran_bind ran
      obtain ⟨rfl, rfl⟩ := ran_pure ran
      obtain ⟨derived, shown, consumed⟩ := nameTest_sound ranTest clean next (by rw [isName]; rfl)
      exact ⟨_, .name derived, rfl, .name shown, consumed⟩
  · rename_i isStar
    obtain ⟨test, middle, ranTest, ran⟩ := ran_bind ran
    obtain ⟨rfl, rfl⟩ := ran_pure ran
    obtain ⟨derived, shown, consumed⟩ := nameTest_sound ranTest clean next (by rw [isStar]; rfl)
    exact ⟨_, .name derived, rfl, .name shown, consumed⟩
  · exact absurd clean (reportHere_unclean ran)

/-- A step that starts with its node test. -/
theorem unmarked_sound {fuel : Nat} {context : String} {body : StepBody}
    (ran : (do return StepBody.tested none (← nodeTest fuel context) : Reading StepBody).run
      reader = (body, later)) (clean : later.Clean) :
    ∃ derived : Grammar.StepBody, body.Shows derived ∧
      reader.lexemes = derived.lexemes ++ later.lexemes := by
  obtain ⟨found, middle, ranTest, ran⟩ := ran_bind ran
  obtain ⟨rfl, rfl⟩ := ran_pure ran
  obtain ⟨test, derived, rfl, shown, consumed⟩ := nodeTest_sound ranTest clean
  exact ⟨.tested none derived, .plain shown, consumed⟩

theorem stepBody_sound {fuel : Nat} {body : StepBody}
    (ran : (stepBody fuel).run reader = (body, later)) (clean : later.Clean) :
    ∃ derived : Grammar.StepBody, body.Shows derived ∧
      reader.lexemes = derived.lexemes ++ later.lexemes := by
  simp only [stepBody, look_then] at ran
  split at ran
  · simpa using unmarked_sound ran clean
  rename_i leaf next
  have consumed := reader.lexemes_of_head next
  split at ran
  · rename_i isDot
    obtain ⟨rfl, rfl⟩ := ran_pure ran
    refine ⟨.self (leaf.sign isDot), .self rfl, ?_⟩
    rw [Reader.lexemes_step, Reader.lexemes_spend, ← consumed]
    rfl
  · rename_i isDotDot
    obtain ⟨rfl, rfl⟩ := ran_pure ran
    refine ⟨.parent (leaf.sign isDotDot), .parent rfl, ?_⟩
    rw [Reader.lexemes_step, Reader.lexemes_spend, ← consumed]
    rfl
  · rename_i isAt
    rw [advance_then] at ran
    obtain ⟨found, middle, ranTest, ran⟩ := ran_bind ran
    obtain ⟨rfl, rfl⟩ := ran_pure ran
    obtain ⟨test, derived, rfl, shown, consumedTest⟩ := nodeTest_sound ranTest clean
    refine ⟨.tested (some (.short (leaf.sign isAt))) derived, .marked (.short rfl) shown, ?_⟩
    rw [Reader.lexemes_step, Reader.lexemes_spend] at consumedTest
    rw [← consumed, consumedTest]
    rfl
  · rename_i isName
    rw [secondIf_then] at ran
    split at ran
    · rename_i colons after
      obtain ⟨second, isColons⟩ := head_of_second after
      rw [advance_then, advance_then] at ran
      obtain ⟨found, middle, ranTest, ran⟩ := ran_bind ran
      obtain ⟨rfl, rfl⟩ := ran_pure ran
      obtain ⟨test, derived, rfl, shown, consumedTest⟩ := nodeTest_sound ranTest clean
      refine ⟨.tested (some (.named (leaf.sign isName) (colons.sign isColons))) derived,
        .marked (.named rfl rfl) shown, ?_⟩
      have consumedColons := reader.step.lexemes_of_head (by simpa using second)
      simp only [Reader.lexemes_step, Reader.lexemes_spend] at consumedColons consumedTest
      rw [← consumed, ← consumedColons, consumedTest]
      rfl
    · simpa using unmarked_sound ran clean
  · simpa using unmarked_sound ran clean

theorem step_sound {fuel : Nat} {found : Step}
    (ran : (step fuel).run reader = (found, later)) (clean : later.Clean) :
    ∃ derived : Grammar.Step, found.Shows derived ∧
      reader.lexemes = derived.lexemes ++ later.lexemes := by
  rw [step, takeBlanks_then, offset_then] at ran
  obtain ⟨body, middle, ranBody, ran⟩ := ran_bind ran
  obtain ⟨predicates, final, ranPredicates, ran⟩ := ran_bind ran
  obtain ⟨rfl, rfl⟩ := ran_pure ran
  obtain ⟨derived, shown, consumedBody⟩ :=
    stepBody_sound ranBody (clean.before (moves_predicates fuel) ranPredicates)
  obtain ⟨others, sameLength, consumedRest⟩ := predicates_sound ranPredicates clean
  refine ⟨⟨derived, others⟩, ⟨shown, sameLength⟩, ?_⟩
  rw [Reader.lexemes_placeBlanks] at consumedBody
  rw [consumedBody, consumedRest, Grammar.Step.lexemes, List.append_assoc]

theorem stepIfAny_sound {fuel : Nat} {found : Option Step}
    (ran : (stepIfAny fuel).run reader = (found, later)) (clean : later.Clean) :
    ∃ (given : Step) (derived : Grammar.Step), found = some given ∧ given.Shows derived ∧
      reader.lexemes = derived.lexemes ++ later.lexemes := by
  simp only [stepIfAny, lookFor_then] at ran
  split at ran
  · obtain ⟨given, middle, ranStep, ran⟩ := ran_bind ran
    obtain ⟨rfl, rfl⟩ := ran_pure ran
    obtain ⟨derived, shown, consumed⟩ := step_sound ranStep clean
    exact ⟨given, derived, rfl, shown, consumed⟩
  · rw [run_ifEnded] at ran
    split at ran <;> exact absurd clean (reportHere_unclean ran)

/-! ## Paths -/

theorem laterParts_sound {fuel : Nat} {parts : List PathPart}
    (ran : (laterParts fuel).run reader = (parts, later)) (clean : later.Clean) :
    ∃ derived : List LaterStep, LaterShow parts derived ∧
      reader.lexemes = derived.flatMap LaterStep.lexemes ++ later.lexemes := by
  induction fuel generalizing reader parts with
  | zero =>
      obtain ⟨rfl, rfl⟩ := ran_pure ran
      exact ⟨[], .nil, rfl⟩
  | succ fuel ih =>
      simp only [laterParts, run_ifHalted] at ran
      split at ran
      · obtain ⟨rfl, rfl⟩ := ran_pure ran
        exact ⟨[], .nil, rfl⟩
      simp only [lookFor_then] at ran
      split at ran
      · obtain ⟨rfl, rfl⟩ := ran_pure ran
        exact ⟨[], .nil, rfl⟩
      rename_i separator inView
      obtain ⟨next, separates⟩ := head_of_filter TokenKind.isSeparator inView
      rw [advance_then] at ran
      obtain ⟨found, middle, ranStep, ran⟩ := ran_bind ran
      obtain ⟨rest, final, ranRest, ran⟩ := ran_bind ran
      obtain ⟨rfl, rfl⟩ := ran_pure ran
      obtain ⟨given, derived, rfl, shown, consumed⟩ :=
        stepIfAny_sound ranStep (clean.before (moves_laterParts fuel) ranRest)
      obtain ⟨others, shownRest, consumedRest⟩ := ih ranRest
      refine ⟨(separator.terminal separates, derived) :: others, .cons rfl shown shownRest, ?_⟩
      rw [Reader.lexemes_step, Reader.lexemes_spend] at consumed
      rw [← reader.lexemes_of_head next, consumed, consumedRest, List.flatMap_cons,
        List.append_assoc]
      rfl

theorem partsFromStep_sound {fuel : Nat} {parts : List PathPart}
    (ran : (partsFromStep fuel).run reader = (parts, later)) (clean : later.Clean) :
    ∃ (first : Step) (rest : List PathPart) (derived : Grammar.Step)
      (others : List LaterStep), parts = .step first :: rest ∧ first.Shows derived ∧
        LaterShow rest others ∧ reader.lexemes =
          derived.lexemes ++ others.flatMap LaterStep.lexemes ++ later.lexemes := by
  obtain ⟨found, middle, ranStep, ran⟩ := ran_bind ran
  obtain ⟨rest, final, ranRest, ran⟩ := ran_bind ran
  obtain ⟨rfl, rfl⟩ := ran_pure ran
  obtain ⟨first, derived, rfl, shown, consumed⟩ :=
    stepIfAny_sound ranStep (clean.before (moves_laterParts fuel) ranRest)
  obtain ⟨others, shownRest, consumedRest⟩ := laterParts_sound ranRest clean
  refine ⟨first, rest, derived, others, rfl, shown, shownRest, ?_⟩
  rw [consumed, consumedRest, List.append_assoc]

theorem pathParts_sound {fuel : Nat} {parts : List PathPart}
    (ran : (pathParts fuel).run reader = (parts, later)) (clean : later.Clean) :
    ∃ derived : Grammar.Path, PartsShow parts derived ∧
      reader.lexemes = derived.lexemes ++ later.lexemes := by
  simp only [pathParts, lookFor_then] at ran
  split at ran
  · obtain ⟨first, rest, derived, others, rfl, shown, shownRest, consumed⟩ :=
      partsFromStep_sound ran clean
    exact ⟨.steps none derived others, .relative shown shownRest, consumed⟩
  · rename_i separator inView
    obtain ⟨next, separates⟩ := head_of_filter TokenKind.isSeparator inView
    have consumedSeparator := reader.lexemes_of_head next
    simp only [look_then, advance_then, ended_then] at ran
    split at ran
    · rename_i single
      obtain ⟨rfl, rfl⟩ := ran_pure ran
      refine ⟨.root (separator.sign single.1), .root rfl, ?_⟩
      simp only [Reader.lexemes_step, Reader.lexemes_spend]
      rw [← consumedSeparator]
      rfl
    · obtain ⟨parts, middle, ranParts, ran⟩ := ran_bind ran
      obtain ⟨rfl, rfl⟩ := ran_pure ran
      obtain ⟨first, rest, derived, others, rfl, shown, shownRest, consumed⟩ :=
        partsFromStep_sound ranParts clean
      refine ⟨.steps (some (separator.terminal separates)) derived others,
        .absolute rfl shown shownRest, ?_⟩
      simp only [Reader.lexemes_step, Reader.lexemes_spend] at consumed
      rw [← consumedSeparator, consumed]
      simp [Grammar.Path.lexemes, Leaf.terminal]

theorem pathIfAny_sound {fuel : Nat} {found : Option Path}
    (ran : (pathIfAny fuel).run reader = (found, later)) (clean : later.Clean) :
    ∃ (given : Path) (derived : Grammar.Path), found = some given ∧
      PartsShow given.parts derived ∧ reader.lexemes = derived.lexemes ++ later.lexemes := by
  rw [pathIfAny, run_ifEnded] at ran
  split at ran
  · exact absurd clean (reportHere_unclean ran)
  · simp only [path, bind_assoc, takeBlanks_then, offset_then] at ran
    obtain ⟨parts, middle, ranParts, ran⟩ := ran_bind ran
    obtain ⟨rfl, rfl⟩ := ran_pure ran
    obtain ⟨derived, shown, consumed⟩ := pathParts_sound ranParts clean
    rw [Reader.lexemes_placeBlanks] at consumed
    exact ⟨_, derived, rfl, shown, consumed⟩

/-- Anything left over is reported. -/
theorem surplusIfAny_sound {found : Option Surplus}
    (ran : surplusIfAny.run reader = (found, later)) (clean : later.Clean) :
    found = none ∧ reader.lexemes = [] := by
  rw [surplusIfAny, run_ifEnded] at ran
  split at ran
  · rename_i atEnd
    obtain ⟨rfl, rfl⟩ := ran_pure ran
    refine ⟨rfl, ?_⟩
    simpa [Reader.hasEnded, clean.within, Reader.lexemes] using atEnd
  · rw [look_then, reportHere_then] at ran
    obtain ⟨surplus, middle, ranSurplus, ran⟩ := ran_bind ran
    obtain ⟨rfl, rfl⟩ := ran_pure ran
    cases (clean.before moves_surplus ranSurplus).silent

/-- A text that is read cleanly derives from the grammar, and its tree shows the derivation. -/
theorem root_sound {fuel : Nat} {found : Root} (ran : (root fuel).run reader = (found, later))
    (clean : later.Clean) :
    found.surplus = none ∧ ∃ (given : Path) (derived : Grammar.Path),
      found.path = some given ∧ PartsShow given.parts derived ∧
        reader.lexemes = derived.lexemes := by
  rw [root] at ran
  obtain ⟨path, middle, ranPath, ran⟩ := ran_bind ran
  obtain ⟨surplus, final, ranSurplus, ran⟩ := ran_bind ran
  rw [get_then] at ran
  obtain ⟨rfl, rfl⟩ := ran_pure ran
  obtain ⟨given, derived, rfl, shown, consumed⟩ :=
    pathIfAny_sound ranPath (clean.before moves_surplusIfAny ranSurplus)
  obtain ⟨rfl, nothingLeft⟩ := surplusIfAny_sound ranSurplus clean
  refine ⟨rfl, given, derived, rfl, shown, ?_⟩
  rw [consumed, nothingLeft, List.append_nil]

end PathCover.Tree
