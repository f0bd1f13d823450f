import PathCover.Proofs.Token.Nesting
import PathCover.Proofs.Tree.Moves
import PathCover.Proofs.Tree.Start

/-!
# The patience of a reader

A group that is left open costs three looks at the token behind it: one to see that its contents
have ended, one for its closing token and one for the report.  So a reader may lose its patience
where many groups are left open at once.  Up to eighty-three of either kind it never does, whether
the text has no more of them or the depth limit stops the reader there.
-/

namespace PathCover.Tree

open Token (Groups)

/-- How many looks more are allowed once a limit was hit. -/
def Reader.grace (reader : Reader) : Nat := if reader.exceeded.isSome then 2 else 0

theorem Reader.grace_le (reader : Reader) : reader.grace ≤ 2 := by
  unfold Reader.grace
  split
  · exact Nat.le_refl 2
  · exact Nat.zero_le 2

/-- The kinds of the tokens that are left. -/
def Reader.kinds (reader : Reader) : List TokenKind := reader.rest.map Leaf.kind

/-- A reader inside open groups that is not stuck and has spent at most `most` looks since its last
token.  Either it will not open more than eighty-three groups, or its tokens do not. -/
structure Reader.Steady (reader : Reader) (groups : Groups) (most : Nat) : Prop where
  free : reader.stuck = false
  patient : reader.looks ≤ most + reader.grace
  within : groups.Within 83
  contained : (∃ limit ≤ 83, reader.limits.depth = some limit) ∨
    groups.StayWithin 83 reader.kinds

namespace Reader.Steady

variable {reader : Reader} {groups other : Groups} {most : Nat}

theorem mono (steady : reader.Steady groups most) {more : Nat} (atMost : most ≤ more) :
    reader.Steady groups more :=
  { steady with patient := Nat.le_trans steady.patient (Nat.add_le_add_right atMost _) }

theorem fewer (steady : reader.Steady other most) (fewer : groups.Fewer other) :
    reader.Steady groups most := by
  refine ⟨steady.free, steady.patient, ?_, ?_⟩
  · exact ⟨Nat.le_trans fewer.parens steady.within.parens,
      Nat.le_trans fewer.brackets steady.within.brackets⟩
  · exact steady.contained.imp_right fun stay => stay.mono fewer

theorem spend_of (steady : reader.Steady groups most) (few : most + reader.grace ≤ 255) :
    reader.spend.Steady groups (most + 1) := by
  have patient := steady.patient
  refine ⟨?_, ?_, steady.within, steady.contained⟩
  · have bound : patience = 256 := rfl
    simp only [Reader.spend, steady.free, Bool.false_or, decide_eq_false_iff_not]
    omega
  · show reader.looks + 1 ≤ most + 1 + reader.grace
    omega

theorem spend (steady : reader.Steady groups most) (few : most ≤ 253) :
    reader.spend.Steady groups (most + 1) :=
  steady.spend_of (Nat.add_le_add few reader.grace_le)

/-- As long as no limit was hit, no looks are kept back for what follows a limit. -/
theorem spend_before (steady : reader.Steady groups most) (before : reader.exceeded = none)
    (few : most ≤ 255) : reader.spend.Steady groups (most + 1) := by
  apply steady.spend_of
  rw [Reader.grace, before]
  exact few

/-- Consuming the next token. -/
theorem step {leaf : Leaf} (steady : reader.Steady groups most)
    (next : reader.rest.head? = some leaf) (fewer : other.Fewer (groups.after leaf.kind))
    (within : other.Within 83) : reader.step.Steady other 0 := by
  refine ⟨by simpa using steady.free, by simp, within, ?_⟩
  rw [Reader.limits_step]
  refine steady.contained.imp_right fun stay => ?_
  obtain ⟨rest, split⟩ := List.head?_eq_some_iff.mp next
  rw [Reader.kinds, split, List.map_cons] at stay
  rw [Reader.kinds, Reader.rest_step, split, List.tail_cons]
  exact stay.2.mono fewer

/-- Consuming a token that closes no group. -/
theorem pass {leaf : Leaf} (steady : reader.Steady groups most)
    (next : reader.rest.head? = some leaf) (notParen : leaf.kind ≠ .parenClose)
    (notBracket : leaf.kind ≠ .bracketClose) : reader.step.Steady groups 0 :=
  steady.step next (groups.fewer_after notParen notBracket) steady.within

/-- Outside of all groups any token may be consumed. -/
theorem outside {leaf : Leaf} (steady : reader.Steady .none most)
    (next : reader.rest.head? = some leaf) : reader.step.Steady .none 0 :=
  steady.step next (.none _) (.none _)

theorem note (steady : reader.Steady groups most) (place : Nat) (diagnostic : Diagnostic) :
    (reader.note place diagnostic).Steady groups most :=
  ⟨steady.free, steady.patient, steady.within, steady.contained⟩

theorem placeBlanks (steady : reader.Steady groups most) :
    reader.placeBlanks.Steady groups most := by
  have grace : reader.placeBlanks.grace = reader.grace := by simp [Reader.grace]
  have kinds : reader.placeBlanks.kinds = reader.kinds := by
    have same := congrArg (List.map Token.kind) reader.rest_placeBlanks
    rw [List.map_map, List.map_map] at same
    exact same
  refine ⟨by simpa using steady.free, ?_, steady.within, ?_⟩
  · rw [Reader.looks_placeBlanks, grace]
    exact steady.patient
  · rw [Reader.limits_placeBlanks, kinds]
    exact steady.contained

theorem exceed (steady : reader.Steady groups most) (limit : Limit) :
    (reader.exceed limit).Steady groups most := by
  have more : reader.grace ≤ (reader.exceed limit).grace := by
    cases before : reader.exceeded <;> simp [Reader.grace, Reader.exceed, before]
  exact ⟨steady.free, Nat.le_trans steady.patient (Nat.add_le_add_left more _), steady.within,
    steady.contained⟩

/-- Hitting the first limit leaves room for two more looks. -/
theorem exceed_first (steady : reader.Steady groups (most + 2)) (before : reader.exceeded = none)
    (limit : Limit) : (reader.exceed limit).Steady groups most := by
  refine ⟨steady.free, ?_, steady.within, steady.contained⟩
  have patient := steady.patient
  simp only [Reader.grace, before, Option.isSome_none] at patient
  simpa [Reader.grace, Reader.exceed, before] using patient

end Reader.Steady

/-! ## Operations -/

section Operations

variable {reader : Reader} {groups other : Groups} {most : Nat}

theorem steady_eat (kind : TokenKind) (steady : reader.Steady groups most) (few : most ≤ 253)
    (fewer : other.Fewer groups) (fewerAfter : other.Fewer (groups.after kind))
    (within : other.Within 83) :
    ((eat kind).run reader).2.Steady other (most + 1) := by
  have looked := steady.spend few
  rcases eat_cases kind reader with ⟨leaf, next, isKind, ate⟩ | ate
  · rw [ate]
    rw [← isKind] at fewerAfter
    exact (looked.step next fewerAfter within).mono (Nat.zero_le _)
  · rw [ate]
    exact looked.fewer fewer

theorem steady_reportHere (kind : DiagnosticKind) (detail : Option String)
    (steady : reader.Steady groups most) (few : most ≤ 253) :
    ((reportHere kind detail).run reader).2.Steady groups (most + 1) := by
  rw [run_reportHere]
  exact (steady.spend few).note _ _

theorem steady_reportHere_before (kind : DiagnosticKind) (detail : Option String)
    (steady : reader.Steady groups most) (before : reader.exceeded = none) (few : most ≤ 255) :
    ((reportHere kind detail).run reader).2.Steady groups (most + 1) := by
  rw [run_reportHere]
  exact (steady.spend_before before few).note _ _

/-- A group is closed, or left open at the cost of two looks. -/
theorem steady_close (closer : TokenKind) (kind : DiagnosticKind) (detail : String)
    (opener : Token) (steady : reader.Steady groups most) (few : most ≤ 252)
    (fewer : other.Fewer groups) (fewerAfter : other.Fewer (groups.after closer))
    (within : other.Within 83) :
    ((close closer kind detail opener).run reader).2.Steady other (most + 2) := by
  have ate := steady_eat closer steady (by omega) fewer fewerAfter within
  simp only [close, run_bind]
  split
  · exact ate.mono (Nat.le_succ _)
  · exact (ate.spend (by omega)).note _ _

/-- A group may be opened only where one more is within bounds. -/
theorem steady_mayOpen {depth : Nat} (steady : reader.Steady groups most)
    (opened : (mayOpen depth).run reader = (true, reader)) :
    depth < 83 ∨ groups.StayWithin 83 reader.kinds := by
  refine steady.contained.imp_left ?_
  rintro ⟨limit, atMost, isLimit⟩
  simp only [mayOpen, StateT.run, isLimit] at opened
  split at opened
  · cases opened
  · omega

end Operations

/-! ## Kind tests -/

section KindTests

variable {reader : Reader} {groups : Groups} {most : Nat}

/-- Names and `*` open and close nothing. -/
theorem after_startsNameTest {kind : TokenKind} (starts : kind.startsNameTest = true) :
    groups.after kind = groups := by
  rcases startsNameTest_cases starts with rfl | rfl <;> rfl

theorem steady_nameTest {first : Leaf} (steady : reader.Steady groups most)
    (next : reader.rest.head? = some first) (starts : first.kind.startsNameTest = true) :
    ((nameTest first).run reader).2.Steady groups 2 := by
  have keeps : ∀ {leaf : Leaf}, leaf.kind.startsNameTest = true →
      groups.Fewer (groups.after leaf.kind) := by
    intro leaf starts
    rw [after_startsNameTest starts]
    exact .refl _
  have stepped := steady.step next (keeps starts) steady.within
  have looked := stepped.spend (by omega)
  rw [nameTest, advance_then]
  rcases eat_cases .colon reader.step with ⟨colon, nextColon, isColon, ate⟩ | ate
  · have behind : reader.step.spend.step.Steady groups 0 :=
      looked.step nextColon (by rw [isColon]; exact .refl _) steady.within
    simp only [run_bind, ate, run_lookFor]
    split
    · rename_i second found
      obtain ⟨nextSecond, startsSecond⟩ := head_of_filter TokenKind.startsNameTest found
      exact ((behind.spend (by omega)).step nextSecond (keeps startsSecond)
        steady.within).mono (by omega)
    · exact steady_reportHere _ _ (behind.spend (by omega)) (by omega)
  · simp only [run_bind, ate]
    exact looked.mono (by omega)

/-- A kind test whose arguments keep a reader steady keeps it so itself. -/
theorem steady_kindTestWith (inner : Reading (List Argument)) {keyword opener : Leaf}
    (steady : reader.Steady groups (most + 2))
    (refusedSteady : (reader.exceed .depth).Steady groups most)
    (next : reader.rest.head? = some keyword) (second : reader.rest.tail.head? = some opener)
    (isName : keyword.kind = .name) (isOpener : opener.kind = .parenOpen)
    (insideSteady : groups.parens < 83 → ∀ inside : Reader,
      inside.Steady (groups.after .parenOpen) 0 → ∃ spent, spent + 2 ≤ most ∧
        (inner.run inside).2.Steady (groups.after .parenOpen) spent) (few : most ≤ 253) :
    ((kindTestWith inner groups.parens keyword opener).run reader).2.Steady groups most := by
  simp only [kindTestWith, run_bind]
  rcases run_mayOpen groups.parens reader with opened | refused
  · simp only [opened, if_true, run_bind, run_advance, run_look, run_pure]
    have atOpener : reader.step.spend.Steady groups 1 :=
      (steady.step next (by rw [isName]; exact .refl _) steady.within).spend (by omega)
    have nextOpener : reader.step.spend.rest.head? = some opener := by simpa using second
    have room : groups.parens < 83 := by
      rcases steady_mayOpen steady opened with room | stay
      · exact room
      · obtain ⟨rest, split⟩ := List.head?_eq_some_iff.mp next
        rw [split, List.tail_cons] at second
        obtain ⟨rest, rfl⟩ := List.head?_eq_some_iff.mp second
        rw [Reader.kinds, split, List.map_cons, List.map_cons, isName, isOpener] at stay
        exact stay.2.2.within.parens
    have within : (groups.after .parenOpen).Within 83 := ⟨room, steady.within.brackets⟩
    have inside : reader.step.spend.step.Steady (groups.after .parenOpen) 0 :=
      atOpener.step nextOpener (by rw [isOpener]; exact .refl _) within
    obtain ⟨spent, atMost, read⟩ := insideSteady room _ inside
    refine (steady_close _ _ _ _ read (by omega) ?_ ?_ steady.within).mono atMost
    · exact groups.fewer_after (by decide) (by decide)
    · exact ⟨Nat.le_refl _, Nat.le_refl _⟩
  · simp only [refused, Bool.false_eq_true, if_false, run_pure]
    exact refusedSteady

theorem not_exceeded (notEnded : ¬ reader.hasEnded = true) : reader.exceeded = none := by
  cases exceeded : reader.exceeded with
  | none => rfl
  | some limit => exact absurd (by simp [Reader.hasEnded, exceeded]) notEnded

/-- A token that does not end arguments closes no group. -/
theorem steady_step_of_notEnd {leaf : Leaf} (steady : reader.Steady groups most)
    (next : reader.rest.head? = some leaf) (notEnd : leaf.kind.endsArguments = false) :
    reader.step.Steady groups 0 := by
  apply steady.pass next
  · intro isCloser
    rw [isCloser] at notEnd
    cases notEnd
  · intro isCloser
    rw [isCloser] at notEnd
    cases notEnd

theorem steady_stray {leaf : Leaf} (steady : reader.Steady groups most)
    (before : reader.exceeded = none) (few : most ≤ 254)
    (next : reader.rest.head? = some leaf) (notEnd : leaf.kind.endsArguments = false) :
    ((stray leaf).run reader).2.Steady groups 0 := by
  simp only [stray, run_bind, run_look, run_advance, run_pure]
  have reported := steady_reportHere_before .unexpectedToken
    (some ("`" ++ leaf.token.text ++ "`")) (steady.spend_before before (by omega)) before
    (by omega)
  exact steady_step_of_notEnd reported next notEnd

/-- Arguments inside `groups.parens` open kind tests.  Every group inside them that is left open
costs three looks, for which the bound makes room. -/
theorem steady_arguments (fuel : Nat)
    (steady : reader.Steady groups (3 * (83 - groups.parens) + 2)) :
    ((arguments fuel groups.parens).run reader).2.Steady groups
      (3 * (83 - groups.parens) + 3) := by
  induction fuel generalizing groups reader with
  | zero => exact steady.mono (by omega)
  | succ fuel ih =>
      simp only [arguments, run_ifEnded]
      split
      · exact steady.mono (by omega)
      rename_i notEnded
      have before := not_exceeded notEnded
      simp only [lookFor_then]
      split
      · exact steady.spend (by omega)
      rename_i leaf found
      obtain ⟨next, notEnd⟩ := head_of_filter (!·.endsArguments) found
      have looked : reader.spend.spend.Steady groups (3 * (83 - groups.parens) + 2 + 2) :=
        (steady.spend (by omega)).spend (by omega)
      have nextLooked : reader.spend.spend.rest.head? = some leaf := next
      have goesOn : leaf.kind.endsArguments = false := by simpa using notEnd
      have stepped := steady_step_of_notEnd looked nextLooked goesOn
      simp only [look_then]
      split
      · rename_i isName
        simp only [secondIf_then]
        split
        · rename_i opener after
          obtain ⟨second, isOpener⟩ := head_of_second after
          have test := steady_kindTestWith (arguments fuel (groups.parens + 1)) looked
            (looked.exceed_first before .depth) nextLooked second isName isOpener ?_ (by omega)
          · simp only [run_bind, run_pure]
            exact ih test
          · intro room inside insideSteady
            refine ⟨_, ?_, ih (insideSteady.mono (Nat.zero_le _))⟩
            simp only [Groups.after]
            omega
        · have test := steady_nameTest looked nextLooked (by rw [isName]; rfl)
          simp only [run_bind, run_pure]
          exact ih (test.mono (by omega))
      · rename_i isStar
        have test := steady_nameTest looked nextLooked (by rw [isStar]; rfl)
        simp only [run_bind, run_pure]
        exact ih (test.mono (by omega))
      · simp only [run_bind, run_advance, run_pure]
        exact ih (stepped.mono (Nat.zero_le _))
      · simp only [run_bind, run_advance, run_pure]
        exact ih (stepped.mono (Nat.zero_le _))
      · simp only [run_bind, run_advance, run_pure]
        exact ih (stepped.mono (Nat.zero_le _))
      · have strayed := steady_stray looked before (by omega) nextLooked goesOn
        simp only [run_bind, run_pure]
        exact ih (strayed.mono (by omega))

end KindTests

/-! ## Predicates -/

section Predicates

variable {reader : Reader} {groups : Groups} {most : Nat}

/-- A predicate whose contents keep a reader steady keeps it so itself. -/
theorem steady_predicateWith (inner : Reading (List PredicateItem)) {opener : Leaf}
    (steady : reader.Steady groups (most + 2))
    (refusedSteady : (reader.exceed .depth).Steady groups most)
    (next : reader.rest.head? = some opener) (isOpener : opener.kind = .bracketOpen)
    (insideSteady : groups.brackets < 83 → ∀ inside : Reader,
      inside.Steady (groups.after .bracketOpen) 0 → ∃ spent, spent + 2 ≤ most ∧
        (inner.run inside).2.Steady (groups.after .bracketOpen) spent) (few : most ≤ 251) :
    ((predicateWith inner groups.brackets opener).run reader).2.Steady groups most := by
  simp only [predicateWith, run_bind]
  rcases run_mayOpen groups.brackets reader with opened | refused
  · simp only [opened, if_true, run_bind, run_advance, run_look, run_pure]
    have room : groups.brackets < 83 := by
      rcases steady_mayOpen steady opened with room | stay
      · exact room
      · obtain ⟨rest, split⟩ := List.head?_eq_some_iff.mp next
        rw [Reader.kinds, split, List.map_cons, isOpener] at stay
        exact stay.2.within.brackets
    have within : (groups.after .bracketOpen).Within 83 := ⟨steady.within.parens, room⟩
    have inside : reader.spend.step.Steady (groups.after .bracketOpen) 0 :=
      (steady.spend (by omega)).step next (by rw [isOpener]; exact .refl _) within
    obtain ⟨spent, atMost, read⟩ := insideSteady room _ inside
    refine (steady_close _ _ _ _ read (by omega) ?_ ?_ steady.within).mono atMost
    · exact groups.fewer_after (by decide) (by decide)
    · exact ⟨Nat.le_refl _, Nat.le_refl _⟩
  · simp only [refused, Bool.false_eq_true, if_false, run_pure]
    exact refusedSteady

/-- The contents of `groups.brackets` open predicates, with the same bound. -/
theorem steady_predicateItems (fuel : Nat)
    (steady : reader.Steady groups (3 * (83 - groups.brackets) + 2))
    (noParens : groups.parens = 0) :
    ((predicateItems fuel groups.brackets).run reader).2.Steady groups
      (3 * (83 - groups.brackets) + 3) := by
  induction fuel generalizing groups reader with
  | zero => exact steady.mono (by omega)
  | succ fuel ih =>
      simp only [predicateItems, run_ifEnded]
      split
      · exact steady.mono (by omega)
      rename_i notEnded
      have before := not_exceeded notEnded
      have looked := steady.spend (by omega)
      simp only [look_then]
      split
      · exact looked
      rename_i leaf next
      have nextLooked : reader.spend.rest.head? = some leaf := next
      split
      · exact looked
      · rename_i isOpener
        have predicate := steady_predicateWith (predicateItems fuel (groups.brackets + 1))
          (looked.mono (Nat.le_succ _))
          ((looked.mono (Nat.le_succ _)).exceed_first before .depth) nextLooked isOpener ?_
          (by omega)
        · simp only [run_bind, run_pure]
          exact ih predicate noParens
        · intro room inside insideSteady
          refine ⟨_, ?_, ih (insideSteady.mono (Nat.zero_le _)) noParens⟩
          simp only [Groups.after]
          omega
      · rename_i notCloser notOpener
        simp only [run_bind, run_advance, run_pure]
        have fewer := groups.fewer_after_noParens noParens notCloser
        exact ih ((looked.step nextLooked fewer steady.within).mono (Nat.zero_le _)) noParens

theorem steady_predicates (fuel : Nat) (steady : reader.Steady .none 251) :
    ((predicates fuel).run reader).2.Steady .none 252 := by
  induction fuel generalizing reader with
  | zero => exact steady.mono (by omega)
  | succ fuel ih =>
      simp only [predicates, run_ifHalted]
      split
      · exact steady.mono (by omega)
      rename_i notExceeded
      have before : reader.spend.exceeded = none := by simpa using notExceeded
      simp only [lookFor_then]
      split
      · exact steady.spend (by omega)
      rename_i opener found
      obtain ⟨next, isOpener⟩ := head_of_filter (fun other => decide (other = .bracketOpen)) found
      have looked : reader.spend.Steady .none (251 + 2) :=
        (steady.spend (by omega)).mono (Nat.le_succ _)
      have predicate := steady_predicateWith (predicateItems fuel 1) looked
        (looked.exceed_first before .depth) next (of_decide_eq_true isOpener) ?_ (by omega)
      · simp only [run_bind, run_pure]
        exact ih predicate
      · intro room inside insideSteady
        refine ⟨_, ?_, steady_predicateItems fuel (insideSteady.mono (Nat.zero_le _)) rfl⟩
        decide

end Predicates

/-! ## Paths -/

section Paths

variable {reader : Reader}

theorem steady_nodeTest (fuel : Nat) (context : String) (steady : reader.Steady .none 249) :
    ((nodeTest fuel context).run reader).2.Steady .none 251 := by
  have looked := steady.spend (by omega)
  simp only [nodeTest, look_then]
  split
  · exact steady_reportHere _ _ looked (by omega)
  rename_i leaf next
  have nextLooked : reader.spend.rest.head? = some leaf := next
  split
  · rename_i isName
    simp only [secondIf_then]
    split
    · rename_i opener after
      obtain ⟨second, isOpener⟩ := head_of_second after
      refine steady_kindTestWith (arguments fuel 1) (looked.mono (by omega))
        ((looked.mono (by omega)).exceed .depth) nextLooked second isName isOpener ?_ (by omega)
      · intro room inside insideSteady
        refine ⟨_, ?_, steady_arguments fuel (insideSteady.mono (Nat.zero_le _))⟩
        decide
    · have test := steady_nameTest looked nextLooked (by rw [isName]; rfl)
      exact test.mono (by omega)
  · rename_i isStar
    have test := steady_nameTest looked nextLooked (by rw [isStar]; rfl)
    exact test.mono (by omega)
  · exact steady_reportHere _ _ looked (by omega)

theorem steady_stepBody (fuel : Nat) (steady : reader.Steady .none 248) :
    ((stepBody fuel).run reader).2.Steady .none 251 := by
  have looked := steady.spend (by omega)
  simp only [stepBody, look_then]
  split
  · exact steady_nodeTest fuel _ looked
  rename_i leaf next
  have nextLooked : reader.spend.rest.head? = some leaf := next
  have stepped := looked.outside nextLooked
  split
  · exact stepped.mono (by omega)
  · exact stepped.mono (by omega)
  · simp only [advance_then]
    exact steady_nodeTest fuel _ (stepped.mono (by omega))
  · simp only [secondIf_then]
    split
    · rename_i colons after
      obtain ⟨second, -⟩ := head_of_second after
      have nextStepped : reader.spend.step.rest.head? = some colons := by simpa using second
      simp only [advance_then]
      exact steady_nodeTest fuel _ ((stepped.outside nextStepped).mono (by omega))
    · exact steady_nodeTest fuel _ looked
  · exact steady_nodeTest fuel _ looked

theorem steady_step (fuel : Nat) (steady : reader.Steady .none 248) :
    ((step fuel).run reader).2.Steady .none 252 := by
  simp only [step, run_bind, run_takeBlanks, run_offset, run_pure]
  exact steady_predicates fuel (steady_stepBody fuel steady.placeBlanks)

theorem steady_stepIfAny (fuel : Nat) (steady : reader.Steady .none 247) :
    ((stepIfAny fuel).run reader).2.Steady .none 252 := by
  have looked := steady.spend (by omega)
  simp only [stepIfAny, lookFor_then]
  split
  · exact steady_step fuel looked
  · rw [run_ifEnded]
    split
    · exact (steady_reportHere _ _ looked (by omega)).mono (by omega)
    · exact (steady_reportHere _ _ looked (by omega)).mono (by omega)

theorem steady_laterParts (fuel : Nat) (steady : reader.Steady .none 252) :
    ((laterParts fuel).run reader).2.Steady .none 253 := by
  induction fuel generalizing reader with
  | zero => exact steady.mono (by omega)
  | succ fuel ih =>
      have looked := steady.spend (by omega)
      simp only [laterParts, run_ifHalted]
      split
      · exact steady.mono (by omega)
      simp only [lookFor_then]
      split
      · exact looked
      · rename_i separator found
        obtain ⟨next, -⟩ := head_of_filter TokenKind.isSeparator found
        have stepped := looked.outside (show reader.spend.rest.head? = some separator from next)
        simp only [run_bind, run_advance, run_pure]
        exact ih (steady_stepIfAny fuel (stepped.mono (by omega)))

theorem steady_partsFromStep (fuel : Nat) (steady : reader.Steady .none 247) :
    ((partsFromStep fuel).run reader).2.Steady .none 253 := by
  simp only [partsFromStep, run_bind, run_pure]
  exact steady_laterParts fuel (steady_stepIfAny fuel steady)

theorem steady_pathIfAny (fuel : Nat) (steady : reader.Steady .none 0) :
    ((pathIfAny fuel).run reader).2.Steady .none 253 := by
  rw [pathIfAny, run_ifEnded]
  split
  · exact (steady_reportHere _ _ steady (by omega)).mono (by omega)
  simp only [path, run_bind, run_takeBlanks, run_offset, run_pure]
  have looked := steady.placeBlanks.spend (by omega)
  simp only [pathParts, lookFor_then]
  split
  · exact steady_partsFromStep fuel (looked.mono (by omega))
  · rename_i separator found
    obtain ⟨next, -⟩ := head_of_filter TokenKind.isSeparator found
    have stepped := (looked.spend (by omega)).outside
      (show reader.placeBlanks.spend.spend.rest.head? = some separator from next)
    simp only [look_then, advance_then, ended_then]
    split
    · exact stepped.mono (by omega)
    · exact steady_partsFromStep fuel (stepped.mono (by omega))

theorem steady_forM_advance (leaves : List Leaf) {most : Nat} (steady : reader.Steady .none most)
    (enough : leaves.length ≤ reader.rest.length) :
    ((leaves.forM fun _ => advance).run reader).2.Steady .none most := by
  induction leaves generalizing reader with
  | nil => exact steady
  | cons leaf leaves ih =>
      obtain ⟨next, rest, split⟩ := List.exists_cons_of_length_pos
        (Nat.lt_of_lt_of_le (Nat.succ_pos _) enough)
      have stepped := steady.outside (List.head?_eq_some_iff.mpr ⟨rest, split⟩)
      refine ih (stepped.mono (Nat.zero_le _)) ?_
      rw [Reader.rest_step, List.length_tail]
      exact Nat.le_sub_one_of_lt enough

theorem steady_surplusIfAny (steady : reader.Steady .none 253) :
    (surplusIfAny.run reader).2.Steady .none 255 := by
  rw [surplusIfAny, run_ifEnded]
  split
  · exact steady.mono (by omega)
  · rename_i notEnded
    have before := not_exceeded notEnded
    simp only [run_bind, run_look, run_pure, surplus, run_takeBlanks, run_offset, run_get]
    refine steady_forM_advance _ (Reader.Steady.placeBlanks ?_) (Nat.le_refl _)
    exact steady_reportHere_before _ _ (steady.spend_before before (by omega)) before (by omega)

theorem steady_root (fuel : Nat) (steady : reader.Steady .none 0) :
    ((root fuel).run reader).2.Steady .none 255 := by
  simp only [root, run_bind, run_get, run_pure]
  exact steady_surplusIfAny (steady_pathIfAny fuel steady)

end Paths

/-- No text gets its reader stuck where at most eighty-three groups of either kind are open at the
same time, be it that the text has no more or that the depth limit allows no more. -/
theorem parse_ne_stuck (limits : Limits) (text : String)
    (shallow : (∃ limit ≤ 83, limits.depth = some limit) ∨ Token.NestsWithin 83 text) :
    parse limits text ≠ .error .stuck := by
  have kinds : (Reader.ofText limits text).kinds =
      (Token.significant text).map Token.Lexeme.kind := by
    rw [← Reader.lexemes_ofText limits, Reader.lexemes, List.map_map]
    rfl
  have steady : (Reader.ofText limits text).Steady .none 0 := by
    refine ⟨rfl, Nat.le_refl 0, .none 83, ?_⟩
    rw [kinds]
    exact shallow
  have free := (steady_root ((Token.significant text).length + 1) steady).free
  rw [parse_eq, outcome, readText, free]
  intro isStuck
  split at isStuck
  · contradiction
  · split at isStuck <;> cases isStuck

/-- One more group of the kind that costs most is too many. -/
example : (readText .none
    (String.ofList ('/' :: (List.replicate 84 ['a', '(']).flatten ++ ['a', ':', ']']))).2.stuck =
      true := by
  decide +kernel

end PathCover.Tree
