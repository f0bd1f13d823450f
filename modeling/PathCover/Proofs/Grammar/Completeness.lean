import PathCover.Proofs.Grammar.Calm

/-!
# Derivations are read

What a rule of the grammar derives is read by the function for that rule: nothing is reported, and
the tree shows the derivation.  Each function stops where its derivation ends, because what may
follow there does not go on with it.

The number of looks at a token is part of every statement.  Each function leaves only a few of them
behind, so the reader is never stuck.
-/

namespace PathCover.Tree

open Token (Lexeme)
open Grammar (Sign Separator LaterStep)

/-- The kinds of tokens that go on with a name and so do not follow one. -/
def joinsName : TokenKind → Bool
  | .colon | .colonColon | .parenOpen => true
  | _ => false

/-- What stands behind a name does not go on with it. -/
def Follows (more : List Lexeme) : Prop := ∀ next ∈ more.head?, joinsName next.kind = false

variable {reader : Reader} {more : List Lexeme} {most : Nat}

/-! ## Name tests and kind tests -/

theorem Follows.ne_colon (follows : Follows more) : ∀ next ∈ more.head?, next.kind ≠ .colon := by
  intro next isNext isColon
  have refused := follows next isNext
  rw [isColon] at refused
  cases refused

/-- A name test starts with its first name, and no parenthesis opens right behind that. -/
theorem lexemes_nameTest (derived : Grammar.NameTest) (follows : Follows more) :
    ∃ others, derived.lexemes ++ more = derived.first.lexeme :: others ∧
      ∀ next ∈ others.head?, next.kind ≠ .parenOpen ∧ next.kind ≠ .colonColon := by
  obtain ⟨first, none | ⟨colon, second⟩⟩ := derived
  · refine ⟨more, rfl, fun next isNext => ?_⟩
    have refused := follows next isNext
    constructor <;> intro same <;> rw [same] at refused <;> cases refused
  · refine ⟨colon.lexeme :: second.lexeme :: more, rfl, ?_⟩
    rintro _ ⟨rfl⟩
    rw [colon.kind_eq]
    exact ⟨by decide, by decide⟩

/-- In front of a name test the next leaf is its first name, and no kind test is in view. -/
theorem nameTest_inView (derived : Grammar.NameTest) {leaf : Leaf}
    (starts : reader.lexemes = derived.lexemes ++ more) (follows : Follows more)
    (next : reader.rest.head? = some leaf) :
    leaf.kind.startsNameTest = true ∧ reader.rest[1]?.filter (·.kind = .parenOpen) = none := by
  obtain ⟨others, split, notJoined⟩ := lexemes_nameTest derived follows
  obtain ⟨found, isNext, same, -⟩ := head_of_lexemes (starts.trans split)
  cases isNext.symm.trans next
  constructor
  · rw [← Leaf.kind_lexeme, same]
    exact derived.first.admits
  · apply second_eq_none (starts.trans split)
    intro other isOther
    exact (notJoined other isOther).1

theorem nameTest_complete (derived : Grammar.NameTest) {leaf : Leaf}
    (starts : reader.lexemes = derived.lexemes ++ more) (follows : Follows more)
    (calm : reader.Calm most) (next : reader.rest.head? = some leaf) :
    Arrives ((nameTest leaf).run reader) more 1 (·.Shows derived) := by
  have consumed := reader.lexemes_of_head next
  rw [← Reader.lexemes_step] at consumed
  rw [nameTest, advance_then]
  obtain ⟨first, none | ⟨colon, second⟩⟩ := derived
  · obtain ⟨same, left⟩ := List.cons.inj (consumed.trans starts)
    refine (eat_refuses left follows.ne_colon calm.step (by decide)).bind ?_
    rintro _ later rfl left calm
    exact .pure (.single same) left calm
  · obtain ⟨same, left⟩ := List.cons.inj (consumed.trans starts)
    refine (eat_complete colon left calm.step (by decide)).bind ?_
    rintro _ later ⟨sign, rfl, sameColon⟩ left calm
    obtain ⟨last, inView, -, sameLast⟩ := filter_of_lexemes _ left second.admits
    simp only [lookFor_then, inView, advance_then]
    refine .pure (.qualified same sameColon sameLast) ?_ ((calm.spend (by decide)).step.mono ?_)
    · rw [Reader.lexemes_step, Reader.lexemes_spend, left]
      rfl
    · decide

theorem close_complete {closer : TokenKind} (sign : Sign closer) (kind : DiagnosticKind)
    (detail : String) (opener : Token) (starts : reader.lexemes = sign.lexeme :: more)
    (calm : reader.Calm most) (few : most < patience) :
    Arrives ((close closer kind detail opener).run reader) more 0
      (fun found => ∃ leaf : Leaf, found = some leaf ∧ leaf.lexeme = sign.lexeme) := by
  rw [close]
  refine (eat_complete sign starts calm few).bind ?_
  rintro _ later ⟨leaf, rfl, same⟩ left calm
  exact .pure ⟨leaf, rfl, same⟩ left calm

/-- A reading reads given arguments if it stands in front of them and of something that ends
them. -/
def ReadsArguments (reading : Reading (List Argument)) (derived : List Grammar.Argument) : Prop :=
  ∀ {reader : Reader} {more : List Lexeme},
    reader.lexemes = Grammar.Argument.lexemesOf derived ++ more →
      (∀ next ∈ more.head?, next.kind.endsArguments = true) → reader.Calm 1 →
        Arrives (reading.run reader) more 2 (List.Forall₂ Argument.Shows · derived)

/-- In front of a kind test the next two leaves are its keyword and its opening parenthesis. -/
theorem kindTest_inView (derived : Grammar.KindTest) {leaf : Leaf}
    (starts : reader.lexemes = derived.lexemes ++ more) (next : reader.rest.head? = some leaf) :
    leaf.kind = .name ∧ ∃ opener, reader.rest[1]?.filter (·.kind = .parenOpen) = some opener ∧
      reader.step.rest.head? = some opener := by
  obtain ⟨isName, -, left⟩ := leaf_of_sign derived.keyword starts next
  obtain ⟨opener, second, isOpener, -, -⟩ := head_of_sign derived.opener left
  refine ⟨isName, opener, ?_, second⟩
  rw [second_eq, second, Option.filter_eq_some_iff]
  exact ⟨rfl, decide_eq_true isOpener⟩

theorem kindTestWith_complete {inner : Reading (List Argument)} (depth : Nat)
    {keyword opener : Leaf} (derived : Grammar.KindTest)
    (starts : reader.lexemes = derived.lexemes ++ more)
    (reads : ReadsArguments inner derived.arguments) (calm : reader.Calm most)
    (next : reader.rest.head? = some keyword) (second : reader.step.rest.head? = some opener) :
    Arrives ((kindTestWith inner depth keyword opener).run reader) more 0
      (fun found => ∃ test : KindTest, found = some test ∧ test.Shows derived) := by
  obtain ⟨-, sameKeyword, left⟩ := leaf_of_sign derived.keyword starts next
  obtain ⟨-, sameOpener, left⟩ := leaf_of_sign derived.opener left second
  rw [kindTestWith, run_bind, calm.mayOpen]
  simp only [if_true, advance_then, look_then]
  have inside : reader.step.spend.step.lexemes =
      Grammar.Argument.lexemesOf derived.arguments ++ (derived.closer.lexeme :: more) := by
    rw [← List.singleton_append, ← List.append_assoc]
    exact left
  refine (reads inside ?_ ((calm.step.spend (by decide)).step.mono (by decide))).bind ?_
  · rintro _ ⟨rfl⟩
    rw [derived.closer.kind_eq]
    rfl
  intro arguments later shown left calm
  refine (close_complete derived.closer _ _ _ left calm (by decide)).bind ?_
  rintro _ later ⟨closer, rfl, sameCloser⟩ left calm
  exact .pure ⟨_, rfl, .nested sameKeyword sameOpener shown sameCloser⟩ left calm

/-- The kinds of tokens that an argument of a kind test starts with. -/
def startsArgument : TokenKind → Bool
  | .name | .star | .comma | .question | .stringLiteral => true
  | _ => false

theorem lexemes_argument (argument : Grammar.Argument) : ∃ (first : Lexeme) (others : List Lexeme),
    argument.lexemes = first :: others ∧ startsArgument first.kind = true := by
  cases argument with
  | name test =>
      obtain ⟨first, second⟩ := test
      have starts : startsArgument first.lexeme.kind = true := by
        have admits := first.admits
        cases kind : first.lexeme.kind <;> simp_all [startsArgument, TokenKind.startsNameTest]
      cases second with
      | none => exact ⟨_, _, rfl, starts⟩
      | some => exact ⟨_, _, rfl, starts⟩
  | comma sign => exact ⟨_, _, rfl, by rw [sign.kind_eq]; rfl⟩
  | question sign => exact ⟨_, _, rfl, by rw [sign.kind_eq]; rfl⟩
  | literal sign => exact ⟨_, _, rfl, by rw [sign.kind_eq]; rfl⟩
  | nested keyword => exact ⟨_, _, rfl, by rw [keyword.kind_eq]; rfl⟩

/-- What starts an argument neither ends the arguments nor goes on with a name. -/
theorem startsArgument_spec : ∀ kind : TokenKind, startsArgument kind = true →
    kind.endsArguments = false ∧ joinsName kind = false := by
  intro kind starts
  cases kind <;> first | exact ⟨rfl, rfl⟩ | cases starts

theorem endsArguments_follows {kind : TokenKind} (ends : kind.endsArguments = true) :
    joinsName kind = false := by
  cases kind <;> first | rfl | cases ends

/-- Arguments, and what ends them, follow a name. -/
theorem follows_arguments (derived : List Grammar.Argument)
    (ends : ∀ next ∈ more.head?, next.kind.endsArguments = true) :
    Follows (Grammar.Argument.lexemesOf derived ++ more) := by
  intro next isNext
  cases derived with
  | nil => exact endsArguments_follows (ends next isNext)
  | cons argument rest =>
      obtain ⟨first, others, split, starts⟩ := lexemes_argument argument
      rw [Grammar.Argument.lexemesOf, split] at isNext
      cases isNext
      exact (startsArgument_spec _ starts).2

theorem arguments_complete (fuel depth : Nat) (derived : List Grammar.Argument)
    (enough : (Grammar.Argument.lexemesOf derived).length < fuel) :
    ReadsArguments (arguments fuel depth) derived := by
  induction fuel generalizing depth derived with
  | zero => cases enough
  | succ fuel ih =>
      intro reader more starts ends calm
      simp only [arguments, run_ifEnded]
      cases derived with
      | nil =>
          split
          · exact .pure .nil starts (calm.mono (by decide))
          · have outOfView := filter_eq_none (!·.endsArguments) starts
              (fun next isNext => by simp [ends next isNext])
            simp only [lookFor_then, outOfView]
            exact .pure .nil starts (calm.spend (by decide))
      | cons argument rest =>
          obtain ⟨first, others, split, startsFirst⟩ := lexemes_argument argument
          have startsNext : reader.lexemes =
              first :: (others ++ (Grammar.Argument.lexemesOf rest ++ more)) := by
            rw [starts, Grammar.Argument.lexemesOf, split, List.append_assoc, List.cons_append]
          obtain ⟨leaf, inView, next, same⟩ := filter_of_lexemes (!·.endsArguments) startsNext
            (by simp [(startsArgument_spec _ startsFirst).1])
          rw [if_neg (by simp [calm.hasEnded, startsNext])]
          simp only [lookFor_then, inView, look_then]
          rw [Grammar.Argument.lexemesOf, List.length_append] at enough
          have restEnough : (Grammar.Argument.lexemesOf rest).length < fuel := by
            rw [split, List.length_cons] at enough
            omega
          have lookedTwice : reader.spend.spend.Calm 3 :=
            (calm.spend (by decide)).spend (by decide)
          have follows := follows_arguments rest ends
          have startsLooked : reader.spend.spend.lexemes =
              argument.lexemes ++ (Grammar.Argument.lexemesOf rest ++ more) := by
            rw [← List.append_assoc]
            exact starts
          have nextLooked : reader.spend.spend.rest.head? = some leaf := next
          generalize reader.spend.spend = looked at lookedTwice startsLooked nextLooked ⊢
          have onward : ∀ {given : Argument}, given.Shows argument → ∀ {later : Reader},
              later.lexemes = Grammar.Argument.lexemesOf rest ++ more → later.Calm 1 →
                Arrives ((do return given :: (← arguments fuel depth)).run later) more 2
                  (List.Forall₂ Argument.Shows · (argument :: rest)) := by
            intro given shown later left calm
            refine (ih depth rest restEnough left ends calm).bind ?_
            intro others later shownOthers left calm
            exact .pure (.cons shown shownOthers) left calm
          cases argument with
          | name test =>
              obtain ⟨isStart, noKindTest⟩ := nameTest_inView test startsLooked follows nextLooked
              have read := nameTest_complete test startsLooked follows lookedTwice nextLooked
              rcases startsNameTest_cases isStart with isName | isStar
              · rw [isName]
                simp only [secondIf_then, noKindTest]
                refine read.bind ?_
                intro given later shown left calm
                exact onward (.name shown) left calm
              · rw [isStar]
                refine read.bind ?_
                intro given later shown left calm
                exact onward (.name shown) left calm
          | comma sign =>
              obtain ⟨isComma, same, left⟩ := leaf_of_sign sign startsLooked nextLooked
              rw [isComma]
              exact onward (.comma same) left (lookedTwice.step.mono (by decide))
          | question sign =>
              obtain ⟨isQuestion, same, left⟩ := leaf_of_sign sign startsLooked nextLooked
              rw [isQuestion]
              exact onward (.question same) left (lookedTwice.step.mono (by decide))
          | literal sign =>
              obtain ⟨isLiteral, same, left⟩ := leaf_of_sign sign startsLooked nextLooked
              rw [isLiteral]
              exact onward (.literal same) left (lookedTwice.step.mono (by decide))
          | nested keyword opener inner closer =>
              obtain ⟨isName, second, inView, nextSecond⟩ :=
                kindTest_inView ⟨keyword, opener, inner, closer⟩ startsLooked nextLooked
              rw [isName]
              simp only [secondIf_then, inView]
              have innerEnough : (Grammar.Argument.lexemesOf inner).length < fuel := by
                simp only [Grammar.Argument.lexemes, List.length_cons, List.length_append] at enough
                omega
              refine (kindTestWith_complete depth ⟨keyword, opener, inner, closer⟩ startsLooked
                (ih (depth + 1) inner innerEnough) lookedTwice nextLooked nextSecond).bind ?_
              rintro _ later ⟨test, rfl, shown⟩ left calm
              exact onward shown left (calm.mono (by decide))

/-! ## Predicates -/

/-- A reading reads the contents of a predicate if it stands in front of them and of what closes the
predicate. -/
def ReadsItems (reading : Reading (List PredicateItem)) (derived : List Grammar.PredicateItem) :
    Prop :=
  ∀ {reader : Reader} {more : List Lexeme},
    reader.lexemes = Grammar.PredicateItem.lexemesOf derived ++ more →
      (∀ next ∈ more.head?, next.kind = .bracketClose) → reader.Calm 0 →
        Arrives (reading.run reader) more 1 (fun _ => True)

theorem predicateWith_complete {inner : Reading (List PredicateItem)} (depth : Nat)
    {leaf : Leaf} (derived : Grammar.Predicate) (starts : reader.lexemes = derived.lexemes ++ more)
    (reads : ReadsItems inner derived.items) (calm : reader.Calm most) (few : most < patience)
    (next : reader.rest.head? = some leaf) :
    Arrives ((predicateWith inner depth leaf).run reader) more 0
      (fun found => ∃ predicate, found = some predicate) := by
  obtain ⟨-, -, left⟩ := leaf_of_sign derived.opener starts next
  rw [predicateWith, run_bind, calm.mayOpen]
  simp only [if_true, look_then, advance_then]
  have inside : reader.spend.step.lexemes =
      Grammar.PredicateItem.lexemesOf derived.items ++ (derived.closer.lexeme :: more) := by
    rw [← List.singleton_append, ← List.append_assoc]
    exact left
  refine (reads inside ?_ (calm.spend few).step).bind ?_
  · rintro _ ⟨rfl⟩
    exact derived.closer.kind_eq
  intro items later _ left calm
  refine (close_complete derived.closer _ _ _ left calm (by decide)).bind ?_
  rintro _ later ⟨closer, rfl, -⟩ left calm
  exact .pure ⟨_, rfl⟩ left calm

theorem predicateItems_complete (fuel depth : Nat) (derived : List Grammar.PredicateItem)
    (enough : (Grammar.PredicateItem.lexemesOf derived).length < fuel) :
    ReadsItems (predicateItems fuel depth) derived := by
  induction fuel generalizing depth derived with
  | zero => cases enough
  | succ fuel ih =>
      intro reader more starts closes calm
      simp only [predicateItems, run_ifEnded, calm.hasEnded]
      cases derived with
      | nil =>
          cases more with
          | nil =>
              rw [if_pos (by rw [starts]; rfl)]
              exact .pure trivial starts (calm.mono (by decide))
          | cons closer more =>
              rw [if_neg (by rw [starts]; exact Bool.false_ne_true)]
              obtain ⟨leaf, next, same, -⟩ := head_of_lexemes starts
              have isCloser : leaf.kind = .bracketClose := by
                rw [← Leaf.kind_lexeme, same]
                exact closes closer rfl
              simp only [look_then, next, isCloser]
              exact .pure trivial starts (calm.spend (by decide))
      | cons item rest =>
          rw [Grammar.PredicateItem.lexemesOf, List.append_assoc] at starts
          rw [Grammar.PredicateItem.lexemesOf, List.length_append] at enough
          have onward : (Grammar.PredicateItem.lexemesOf rest).length < fuel →
              ∀ (given : List PredicateItem) {later : Reader},
                later.lexemes = Grammar.PredicateItem.lexemesOf rest ++ more → later.Calm 0 →
                  Arrives ((do return given ++ (← predicateItems fuel depth)).run later) more 1
                    (fun _ => True) := by
            intro restEnough given later left calm
            refine (ih depth rest restEnough left closes calm).bind ?_
            intro others later _ left calm
            exact .pure trivial left calm
          cases item with
          | plain terminal =>
              rw [if_neg (by rw [starts]; exact Bool.false_ne_true)]
              obtain ⟨leaf, next, same, left⟩ := head_of_lexemes starts
              have plain := of_decide_eq_true terminal.admits
              rw [← same, Leaf.kind_lexeme] at plain
              simp only [look_then, next]
              split
              · rename_i isCloser
                exact absurd isCloser plain.2
              · rename_i isOpener
                exact absurd isOpener plain.1
              · rw [advance_then]
                simp only [Grammar.PredicateItem.lexemes, List.length_singleton] at enough
                exact onward (by omega) [.leaf leaf] left (calm.spend (by decide)).step
          | nested opener inner closer =>
              rw [if_neg (by rw [starts]; exact Bool.false_ne_true)]
              obtain ⟨leaf, next, isOpener, -, -⟩ := head_of_sign opener starts
              simp only [look_then, next, isOpener]
              simp only [Grammar.PredicateItem.lexemes, List.length_cons, List.length_append]
                at enough
              have innerEnough : (Grammar.PredicateItem.lexemesOf inner).length < fuel := by omega
              have startsLooked : reader.spend.lexemes =
                  (Grammar.PredicateItem.nested opener inner closer).lexemes ++
                    (Grammar.PredicateItem.lexemesOf rest ++ more) := starts
              refine (predicateWith_complete depth ⟨opener, inner, closer⟩ startsLooked
                (ih (depth + 1) inner innerEnough) (calm.spend (by decide)) (by decide)
                next).bind ?_
              rintro _ later ⟨given, rfl⟩ left calm
              exact onward (by omega) _ left calm

theorem predicates_complete (fuel : Nat) (derived : List Grammar.Predicate)
    (enough : (derived.flatMap Grammar.Predicate.lexemes).length < fuel)
    (starts : reader.lexemes = derived.flatMap Grammar.Predicate.lexemes ++ more)
    (ends : ∀ next ∈ more.head?, next.kind ≠ .bracketOpen) (calm : reader.Calm 1) :
    Arrives ((predicates fuel).run reader) more 2 (·.length = derived.length) := by
  induction fuel generalizing reader derived with
  | zero => cases enough
  | succ fuel ih =>
      simp only [predicates, run_ifHalted, calm.within, Option.isSome_none, Bool.false_eq_true,
        if_false, lookFor_then]
      cases derived with
      | nil =>
          rw [filter_eq_none (fun other => decide (other = .bracketOpen)) starts
            (fun next isNext => decide_eq_false (ends next isNext))]
          exact .pure rfl starts (calm.spend (by decide))
      | cons predicate rest =>
          rw [List.flatMap_cons, List.append_assoc] at starts
          rw [List.flatMap_cons, List.length_append] at enough
          obtain ⟨leaf, inView, next, -⟩ := filter_of_lexemes
            (fun other => decide (other = .bracketOpen)) starts predicate.opener.admits
          rw [inView]
          have startsLooked : reader.spend.lexemes = predicate.lexemes ++
              (rest.flatMap Grammar.Predicate.lexemes ++ more) := starts
          simp only [Grammar.Predicate.lexemes, Grammar.PredicateItem.lexemes, List.length_cons,
            List.length_append] at enough
          have itemsEnough : (Grammar.PredicateItem.lexemesOf predicate.items).length < fuel := by
            omega
          refine (predicateWith_complete 0 predicate startsLooked
            (predicateItems_complete fuel 1 predicate.items itemsEnough)
            (calm.spend (by decide)) (by decide) next).bind ?_
          rintro _ later ⟨given, rfl⟩ left calm
          refine (ih rest (by omega) left (calm.mono (by decide))).bind ?_
          intro others later sameLength left calm
          exact .pure (by simp [sameLength]) left calm

/-! ## Steps -/

theorem lexemes_nodeTest (derived : Grammar.NodeTest) (follows : Follows more) :
    ∃ first others, derived.lexemes ++ more = first :: others ∧
      first.kind.startsNameTest = true ∧ ∀ next ∈ others.head?, next.kind ≠ .colonColon := by
  cases derived with
  | name test =>
      obtain ⟨others, split, notJoined⟩ := lexemes_nameTest test follows
      exact ⟨_, others, split, test.first.admits, fun next isNext => (notJoined next isNext).2⟩
  | kind test =>
      refine ⟨_, _, rfl, by rw [test.keyword.kind_eq]; rfl, ?_⟩
      rintro _ ⟨rfl⟩
      rw [test.opener.kind_eq]
      decide

theorem nodeTest_complete (fuel : Nat) (context : String) (derived : Grammar.NodeTest)
    (enough : derived.lexemes.length < fuel) (starts : reader.lexemes = derived.lexemes ++ more)
    (follows : Follows more) (calm : reader.Calm 5) :
    Arrives ((nodeTest fuel context).run reader) more 1
      (fun found => ∃ test : NodeTest, found = some test ∧ test.Shows derived) := by
  have startsLooked : reader.spend.lexemes = derived.lexemes ++ more := starts
  have looked := calm.spend (by decide)
  cases derived with
  | name test =>
      obtain ⟨others, split, -⟩ := lexemes_nameTest test follows
      obtain ⟨leaf, next, -, -⟩ := head_of_lexemes (startsLooked.trans split)
      obtain ⟨isStart, noKindTest⟩ := nameTest_inView test startsLooked follows next
      have read := nameTest_complete test startsLooked follows looked next
      rw [Reader.rest_spend] at next
      simp only [nodeTest, look_then, next]
      rcases startsNameTest_cases isStart with isName | isStar
      · rw [isName]
        simp only [secondIf_then, noKindTest]
        refine read.bind ?_
        intro given later shown left calm
        exact .pure ⟨_, rfl, .name shown⟩ left calm
      · rw [isStar]
        refine read.bind ?_
        intro given later shown left calm
        exact .pure ⟨_, rfl, .name shown⟩ left calm
  | kind test =>
      obtain ⟨leaf, next, -, -⟩ := head_of_sign test.keyword startsLooked
      obtain ⟨isName, opener, inView, second⟩ := kindTest_inView test startsLooked next
      have nextFirst : reader.rest.head? = some leaf := next
      simp only [nodeTest, look_then, nextFirst, isName, secondIf_then, inView]
      have argumentsEnough : (Grammar.Argument.lexemesOf test.arguments).length < fuel := by
        simp only [Grammar.NodeTest.lexemes, Grammar.KindTest.lexemes, Grammar.KindTest.argument,
          Grammar.Argument.lexemes, List.length_cons, List.length_append] at enough
        omega
      refine (kindTestWith_complete 0 test startsLooked
        (arguments_complete fuel 1 test.arguments argumentsEnough) looked next second).bind ?_
      rintro _ later ⟨given, rfl, shown⟩ left calm
      exact .pure ⟨_, rfl, .kind shown⟩ left (calm.mono (by decide))

theorem marked_complete (fuel : Nat) (context : String) {axis : AxisMark}
    {derivedAxis : Grammar.AxisMark} (derived : Grammar.NodeTest)
    (enough : derived.lexemes.length < fuel) (starts : reader.lexemes = derived.lexemes ++ more)
    (follows : Follows more) (calm : reader.Calm 0) (shownAxis : axis.Shows derivedAxis) :
    Arrives ((do return StepBody.tested (some axis) (← nodeTest fuel context)).run reader) more 1
      (·.Shows (.tested (some derivedAxis) derived)) := by
  refine (nodeTest_complete fuel context derived enough starts follows
    (calm.mono (by decide))).bind ?_
  rintro _ later ⟨test, rfl, shown⟩ left calm
  exact .pure (.marked shownAxis shown) left calm

theorem stepBody_complete (fuel : Nat) (derived : Grammar.StepBody)
    (enough : derived.lexemes.length < fuel) (starts : reader.lexemes = derived.lexemes ++ more)
    (follows : Follows more) (calm : reader.Calm 4) :
    Arrives ((stepBody fuel).run reader) more 1 (·.Shows derived) := by
  have looked := calm.spend (by decide)
  cases derived with
  | self sign =>
      obtain ⟨leaf, next, isDot, same, left⟩ := head_of_sign sign starts
      simp only [stepBody, look_then, next, isDot]
      exact .pure (.self same) left (looked.step.mono (by decide))
  | parent sign =>
      obtain ⟨leaf, next, isDotDot, same, left⟩ := head_of_sign sign starts
      simp only [stepBody, look_then, next, isDotDot]
      exact .pure (.parent same) left (looked.step.mono (by decide))
  | tested axis test =>
      rcases axis with _ | sign | ⟨name, colons⟩
      · obtain ⟨first, others, split, isStart, notColons⟩ := lexemes_nodeTest test follows
        obtain ⟨leaf, next, same, left⟩ := head_of_lexemes (starts.trans split)
        rw [← same, Leaf.kind_lexeme] at isStart
        have startsLooked : reader.spend.lexemes = test.lexemes ++ more := starts
        have read : Arrives ((do
            return StepBody.tested none (← nodeTest fuel "at start of step")).run reader.spend)
            more 1 (·.Shows (.tested none test)) := by
          refine (nodeTest_complete fuel _ test enough startsLooked follows looked).bind ?_
          rintro _ later ⟨given, rfl, shown⟩ left calm
          exact .pure (.plain shown) left calm
        simp only [stepBody, look_then, next]
        rcases startsNameTest_cases isStart with isName | isStar
        · rw [isName]
          simp only [secondIf_then, second_eq_none (startsLooked.trans split) notColons]
          exact read
        · rw [isStar]
          exact read
      · obtain ⟨leaf, next, isAt, same, left⟩ := head_of_sign sign starts
        simp only [stepBody, look_then, next, isAt, advance_then]
        have testEnough : test.lexemes.length < fuel := Nat.lt_of_succ_lt enough
        exact marked_complete fuel _ test testEnough left follows looked.step (.short same)
      · obtain ⟨leaf, next, isName, same, left⟩ := head_of_sign name starts
        obtain ⟨second, inView, nextSecond, sameSecond⟩ := filter_of_lexemes
          (fun other => decide (other = .colonColon)) left colons.admits
        have leftTest : reader.spend.step.step.lexemes = test.lexemes ++ more := by
          rw [Reader.lexemes_step] at left
          simp only [Reader.lexemes_step, Reader.lexemes_spend, left]
          rfl
        simp only [stepBody, look_then, next, isName, secondIf_then, Reader.rest_spend,
          second_eq, inView, advance_then]
        have testEnough : test.lexemes.length < fuel :=
          Nat.lt_of_succ_lt (Nat.lt_of_succ_lt enough)
        exact marked_complete fuel _ test testEnough leftTest follows looked.step.step
          (.named same sameSecond)

/-- What may stand behind a step that belongs to a path. -/
def EndsStep (more : List Lexeme) : Prop := ∀ next ∈ more.head?, next.kind.isSeparator = true

theorem EndsStep.ne_bracketOpen (ends : EndsStep more) :
    ∀ next ∈ more.head?, next.kind ≠ .bracketOpen := by
  intro next isNext same
  have separates := ends next isNext
  rw [same] at separates
  cases separates

/-- The predicates of a step, and what stands behind the step, follow a name. -/
theorem EndsStep.follows (ends : EndsStep more) (predicates : List Grammar.Predicate) :
    Follows (predicates.flatMap Grammar.Predicate.lexemes ++ more) := by
  intro next isNext
  cases predicates with
  | nil =>
      have separates := ends next isNext
      cases kind : next.kind <;> first | rfl | (rw [kind] at separates; cases separates)
  | cons predicate rest =>
      cases isNext
      show joinsName predicate.opener.lexeme.kind = false
      rw [predicate.opener.kind_eq]
      rfl

theorem step_complete (fuel : Nat) (derived : Grammar.Step)
    (enough : derived.lexemes.length < fuel) (starts : reader.lexemes = derived.lexemes ++ more)
    (ends : EndsStep more) (calm : reader.Calm 4) :
    Arrives ((step fuel).run reader) more 2 (·.Shows derived) := by
  rw [Grammar.Step.lexemes, List.length_append] at enough
  rw [Grammar.Step.lexemes, List.append_assoc, ← Reader.lexemes_placeBlanks] at starts
  rw [step, takeBlanks_then, offset_then]
  refine (stepBody_complete fuel derived.body (by omega) starts
    (ends.follows derived.predicates) calm.placeBlanks).bind ?_
  intro body later shown left calm
  refine (predicates_complete fuel derived.predicates (by omega) left ends.ne_bracketOpen
    calm).bind ?_
  intro predicates later sameLength left calm
  exact .pure ⟨shown, sameLength⟩ left calm

theorem startsNameTest_startsStep {kind : TokenKind} (starts : kind.startsNameTest = true) :
    kind.startsStep = true := by
  rcases startsNameTest_cases starts with rfl | rfl <;> rfl

theorem lexemes_step (derived : Grammar.Step) (more : List Lexeme) : ∃ first others,
    derived.lexemes ++ more = first :: others ∧ first.kind.startsStep = true := by
  obtain ⟨body, predicates⟩ := derived
  cases body with
  | self sign => exact ⟨_, _, rfl, by rw [sign.kind_eq]; rfl⟩
  | parent sign => exact ⟨_, _, rfl, by rw [sign.kind_eq]; rfl⟩
  | tested axis test =>
      rcases axis with _ | sign | ⟨name, colons⟩
      · cases test with
        | name test =>
            obtain ⟨first, none | second⟩ := test
            · exact ⟨_, _, rfl, startsNameTest_startsStep first.admits⟩
            · exact ⟨_, _, rfl, startsNameTest_startsStep first.admits⟩
        | kind test => exact ⟨_, _, rfl, by rw [test.keyword.kind_eq]; rfl⟩
      · exact ⟨_, _, rfl, by rw [sign.kind_eq]; rfl⟩
      · exact ⟨_, _, rfl, by rw [name.kind_eq]; rfl⟩

theorem stepIfAny_complete (fuel : Nat) (derived : Grammar.Step)
    (enough : derived.lexemes.length < fuel) (starts : reader.lexemes = derived.lexemes ++ more)
    (ends : EndsStep more) (calm : reader.Calm 3) :
    Arrives ((stepIfAny fuel).run reader) more 2
      (fun found => ∃ given : Step, found = some given ∧ given.Shows derived) := by
  obtain ⟨first, others, split, isStart⟩ := lexemes_step derived more
  obtain ⟨leaf, inView, -, -⟩ :=
    filter_of_lexemes TokenKind.startsStep (starts.trans split) isStart
  simp only [stepIfAny, lookFor_then, inView]
  have startsLooked : reader.spend.lexemes = derived.lexemes ++ more := starts
  refine (step_complete fuel derived enough startsLooked ends (calm.spend (by decide))).bind ?_
  intro given later shown left calm
  exact .pure ⟨given, rfl, shown⟩ left calm

/-! ## Paths -/

theorem endsStep_later (later : List LaterStep) :
    EndsStep (later.flatMap LaterStep.lexemes) := by
  intro next isNext
  cases later with
  | nil => cases isNext
  | cons first rest =>
      cases isNext
      exact first.1.admits

theorem laterParts_complete (fuel : Nat) (derived : List LaterStep)
    (enough : (derived.flatMap LaterStep.lexemes).length < fuel)
    (starts : reader.lexemes = derived.flatMap LaterStep.lexemes) (calm : reader.Calm 2) :
    Arrives ((laterParts fuel).run reader) [] 3 (LaterShow · derived) := by
  induction fuel generalizing reader derived with
  | zero => cases enough
  | succ fuel ih =>
      simp only [laterParts, run_ifHalted, calm.within, Option.isSome_none, Bool.false_eq_true,
        if_false, lookFor_then]
      cases derived with
      | nil =>
          rw [filter_eq_none TokenKind.isSeparator starts (by rintro _ ⟨⟩)]
          exact .pure .nil starts (calm.spend (by decide))
      | cons first rest =>
          obtain ⟨separator, derived⟩ := first
          simp only [List.flatMap_cons, LaterStep.lexemes, List.length_append, List.length_cons]
            at enough
          obtain ⟨leaf, inView, next, same⟩ :=
            filter_of_lexemes TokenKind.isSeparator starts separator.admits
          obtain ⟨-, left⟩ := List.cons.inj ((reader.lexemes_of_head next).trans starts)
          simp only [inView, advance_then]
          have startsStep : reader.spend.step.lexemes =
              derived.lexemes ++ rest.flatMap LaterStep.lexemes := by
            rw [Reader.lexemes_step, Reader.lexemes_spend, left]
            rfl
          refine (stepIfAny_complete fuel derived (by omega) startsStep (endsStep_later rest)
            ((calm.spend (by decide)).step.mono (by decide))).bind ?_
          rintro _ later ⟨given, rfl, shown⟩ left calm
          refine (ih rest (by omega) left calm).bind ?_
          intro others later shownOthers left calm
          exact .pure (.cons same shown shownOthers) left calm

theorem partsFromStep_complete (fuel : Nat) (first : Grammar.Step) (later : List LaterStep)
    (enough : (first.lexemes ++ later.flatMap LaterStep.lexemes).length < fuel)
    (starts : reader.lexemes = first.lexemes ++ later.flatMap LaterStep.lexemes)
    (calm : reader.Calm 3) :
    Arrives ((partsFromStep fuel).run reader) [] 3
      (fun parts => ∃ (step : Step) (rest : List PathPart), parts = .step step :: rest ∧
        step.Shows first ∧ LaterShow rest later) := by
  rw [List.length_append] at enough
  refine (stepIfAny_complete fuel first (by omega) starts (endsStep_later later) calm).bind ?_
  rintro _ between ⟨given, rfl, shown⟩ left calm
  refine (laterParts_complete fuel later (by omega) left calm).bind ?_
  intro parts between shownLater left calm
  exact .pure ⟨given, parts, rfl, shown, shownLater⟩ left calm

theorem pathParts_complete (fuel : Nat) (derived : Grammar.Path)
    (enough : derived.lexemes.length < fuel) (starts : reader.lexemes = derived.lexemes)
    (calm : reader.Calm 0) :
    Arrives ((pathParts fuel).run reader) [] 3 (PartsShow · derived) := by
  have looked := calm.spend (by decide)
  rcases derived with slash | ⟨_ | separator, first, later⟩
  · obtain ⟨leaf, inView, next, same⟩ := filter_of_lexemes TokenKind.isSeparator starts
      (by rw [slash.kind_eq]; rfl)
    have isSlash : leaf.kind = .slash := Leaf.kind_of_sign same
    have left : reader.spend.spend.step.lexemes = [] := by
      simp only [Reader.lexemes_step, Reader.lexemes_spend, starts]
      rfl
    have stepped := (looked.spend (by decide)).step
    simp only [pathParts, lookFor_then, inView, look_then, advance_then, ended_then,
      stepped.hasEnded, left, List.isEmpty_nil]
    rw [if_pos ⟨isSlash, trivial⟩]
    exact .pure (.root same) left (stepped.mono (by decide))
  · obtain ⟨lexeme, others, split, isStart⟩ :=
      lexemes_step first (later.flatMap LaterStep.lexemes)
    have outOfView := filter_eq_none TokenKind.isSeparator (starts.trans split) (by
      rintro _ ⟨rfl⟩
      cases kind : lexeme.kind <;> first | rfl | (rw [kind] at isStart; cases isStart))
    simp only [pathParts, lookFor_then, outOfView]
    have read := partsFromStep_complete fuel first later enough
      (show reader.spend.lexemes = _ from starts) (looked.mono (by decide))
    refine ⟨?_, read.left, read.calm⟩
    obtain ⟨step, rest, parts, shown, shownLater⟩ := read.holds
    rw [parts]
    exact .relative shown shownLater
  · obtain ⟨leaf, inView, next, same⟩ :=
      filter_of_lexemes TokenKind.isSeparator starts separator.admits
    have left : reader.spend.spend.step.lexemes =
        first.lexemes ++ later.flatMap LaterStep.lexemes := by
      simp only [Reader.lexemes_step, Reader.lexemes_spend, starts]
      rfl
    have stepped := (looked.spend (by decide)).step
    obtain ⟨lexeme, others, split, -⟩ := lexemes_step first (later.flatMap LaterStep.lexemes)
    simp only [pathParts, lookFor_then, inView, look_then, advance_then, ended_then,
      stepped.hasEnded, left, split, List.isEmpty_cons, Bool.false_eq_true, and_false, if_false]
    refine (partsFromStep_complete fuel first later (Nat.lt_of_succ_lt enough) left
      (stepped.mono (by decide))).bind ?_
    rintro _ between ⟨step, rest, rfl, shown, shownLater⟩ left calm
    exact .pure (.absolute same shown shownLater) left calm

theorem lexemes_ne_nil (derived : Grammar.Path) : derived.lexemes ≠ [] := by
  rcases derived with slash | ⟨_ | separator, first, later⟩
  · exact List.cons_ne_nil _ _
  · obtain ⟨lexeme, others, split, -⟩ := lexemes_step first (later.flatMap LaterStep.lexemes)
    show first.lexemes ++ later.flatMap LaterStep.lexemes ≠ []
    rw [split]
    exact List.cons_ne_nil _ _
  · exact List.cons_ne_nil _ _

/-- What the grammar derives is read without a report, and its tree shows the derivation. -/
theorem root_complete (fuel : Nat) (derived : Grammar.Path)
    (enough : derived.lexemes.length < fuel) (starts : reader.lexemes = derived.lexemes)
    (calm : reader.Calm 0) :
    Arrives ((root fuel).run reader) [] 3 (fun tree => tree.surplus = none ∧
      ∃ given : Path, tree.path = some given ∧ PartsShow given.parts derived) := by
  have read : Arrives ((pathIfAny fuel).run reader) [] 3
      (fun found => ∃ given : Path, found = some given ∧ PartsShow given.parts derived) := by
    have notEnded : reader.hasEnded = false := by
      rw [calm.hasEnded, starts, List.isEmpty_eq_false_iff]
      exact lexemes_ne_nil derived
    rw [pathIfAny, run_ifEnded, notEnded, if_neg Bool.false_ne_true]
    simp only [path, bind_assoc, takeBlanks_then, offset_then]
    refine (pathParts_complete fuel derived enough
      (reader.lexemes_placeBlanks.trans starts) calm.placeBlanks).bind ?_
    intro parts later shown left calm
    exact .pure ⟨_, rfl, shown⟩ left calm
  rw [root]
  refine read.bind ?_
  rintro _ later ⟨given, rfl, shown⟩ left calm
  have isOver : later.hasEnded = true := by
    rw [calm.hasEnded, left]
    rfl
  rw [run_bind, surplusIfAny, run_ifEnded, isOver, if_pos rfl]
  exact .pure ⟨rfl, given, rfl, shown⟩ left calm

end PathCover.Tree
