import PathCover.Proofs.Tree.Admission

/-!
# Losing patience at the depth limit

A reader that the depth limit stops has as many groups open as the limit allows.  It leaves each of
them at the cost of two looks at the token that it stopped at: one for the closing token and one for
the report.  So from a limit of 128 groups on no patience is left when it has left them all.
-/

namespace PathCover.Tree

/-! ## What moves keep -/

section Keep

variable {first reader : Reader}

theorem Moves.stuck (moves : Moves first reader) (isStuck : first.stuck = true) :
    reader.stuck = true := by
  induction moves with
  | done => exact isStuck
  | look _ ih => simp [Reader.spend, ih]
  | advance _ _ ih => rw [Reader.stuck_step, ih]
  | exceed _ _ ih => exact ih
  | placeBlanks _ ih => rw [Reader.stuck_placeBlanks, ih]
  | note _ _ _ _ ih => exact ih

/-- Only a reader that is stuck has spent more looks than its patience allows. -/
def Reader.Counts (reader : Reader) : Prop := reader.stuck = true ∨ reader.looks ≤ patience

theorem Reader.Counts.spend (counts : reader.Counts) : reader.spend.Counts := by
  cases counts with
  | inl isStuck =>
      left
      simp [Reader.spend, isStuck]
  | inr few =>
      by_cases last : patience ≤ reader.looks
      · left
        simp [Reader.spend, last]
      · right
        exact Nat.lt_of_not_le last

theorem Moves.counts (moves : Moves first reader) (counts : first.Counts) : reader.Counts := by
  induction moves with
  | done => exact counts
  | look _ ih => exact ih.spend
  | advance _ _ _ =>
      right
      rw [Reader.looks_step]
      exact Nat.zero_le _
  | exceed _ _ ih => exact ih
  | placeBlanks _ ih =>
      rw [Reader.Counts, Reader.stuck_placeBlanks, Reader.looks_placeBlanks]
      exact ih
  | note _ _ _ _ ih => exact ih

end Keep

/-! ## Readers with and without a limit hit -/

/-- A reader that has hit no limit and can hit only its depth limit. -/
structure Reader.Fresh (reader : Reader) (most : Nat) : Prop where
  room : reader.HasRoom
  depth : reader.limits.depth = some most
  before : reader.exceeded = none
  counts : reader.Counts

/-- A reader that was stopped by a limit and has left `groups` groups since, each at the cost of two
looks. -/
structure Reader.Worn (reader : Reader) (groups : Nat) : Prop where
  exceeded : reader.exceeded.isSome = true
  counts : reader.Counts
  looks : 2 * groups + 1 ≤ reader.looks
  next : ∀ leaf ∈ reader.rest.head?, leaf.kind ≠ .parenClose ∧ leaf.kind ≠ .bracketClose

/-- A reader inside `depth` open groups of `most` that are allowed: it has hit no limit, or it was
stopped by one and has left all groups but these. -/
def Reader.Wears (reader : Reader) (most depth : Nat) : Prop :=
  reader.Fresh most ∨ reader.Worn (most - depth)

section Fresh

variable {α : Type} {reader later : Reader} {most depth : Nat}

theorem Reader.Fresh.moved (fresh : reader.Fresh most) (moves : Moves reader later)
    (before : later.exceeded = none) : later.Fresh most :=
  ⟨moves.hasRoom fresh.room, by rw [moves.limits, fresh.depth], before, moves.counts fresh.counts⟩

/-- What agrees with its unlimited run hits no limit. -/
theorem Reader.Fresh.run {reading : Reading α} (fresh : reader.Fresh most)
    (agrees : Agrees reading reader)
    (moves : ∀ other : Reader, other.rest = reader.rest → Moves other (reading.run other).2) :
    (reading.run reader).2.Fresh most := by
  apply fresh.moved (moves reader rfl)
  have accounted : reader.unlimited.Accounted := by
    constructor
    · intro _ limit isLimit
      cases isLimit
    · intro isHit
      cases fresh.before.symm.trans isHit
    · intro isHit
      cases fresh.before.symm.trans isHit
  have unlimited := moves reader.unlimited rfl
  rw [agrees.unlimited] at unlimited
  have within := (unlimited.accounted accounted).exceeded_eq_none unlimited.limits
  exact within

theorem Reader.Fresh.spend (fresh : reader.Fresh most) : reader.spend.Fresh most :=
  fresh.moved (.look .done) fresh.before

theorem Reader.Fresh.placeBlanks (fresh : reader.Fresh most) : reader.placeBlanks.Fresh most :=
  fresh.moved (.placeBlanks .done) (by rw [Reader.exceeded_placeBlanks, fresh.before])

theorem Reader.Fresh.step (fresh : reader.Fresh most) (next : reader.rest ≠ []) :
    reader.step.Fresh most := by
  apply fresh.run (agrees_advance fresh.room next)
  intro other same
  exact .advance .done (by rw [same]; exact next)

theorem Reader.Fresh.reportHere (fresh : reader.Fresh most) (kind : DiagnosticKind)
    (detail : Option String) (error : kind.severity = .error) :
    ((reportHere kind detail).run reader).2.Fresh most :=
  fresh.moved (moves_reportHere detail error reader) fresh.before

theorem Reader.Fresh.nameTest (fresh : reader.Fresh most) (first : Leaf)
    (next : reader.rest ≠ []) : ((nameTest first).run reader).2.Fresh most := by
  apply fresh.run (agrees_nameTest first fresh.room next)
  intro other same
  exact moves_nameTest first other (by rw [same]; exact next)

theorem Reader.Fresh.stray (fresh : reader.Fresh most) (leaf : Leaf)
    (next : reader.rest ≠ []) : ((stray leaf).run reader).2.Fresh most := by
  apply fresh.run (agrees_stray leaf fresh.room next)
  intro other same
  exact moves_stray leaf other (by rw [same]; exact next)

/-- A reader that is stopped is in front of a token that closes nothing, and spends two more looks
on the group that it leaves. -/
theorem Reader.Wears.close (wears : reader.Wears most (depth + 1)) (below : depth < most)
    {closer : TokenKind} (isCloser : closer = .parenClose ∨ closer = .bracketClose)
    {kind : DiagnosticKind} (detail : String) (opener : Token) (error : kind.severity = .error) :
    ((close closer kind detail opener).run reader).2.Wears most depth := by
  have moves : ∀ other, Moves other ((Tree.close closer kind detail opener).run other).2 := by
    intro other
    exact moves_close closer kind detail opener error other
  cases wears with
  | inl fresh =>
      left
      apply fresh.run (agrees_close closer kind detail opener fresh.room)
      intro other _
      exact moves other
  | inr worn =>
      right
      have counts := (moves reader).counts worn.counts
      have exceeded := (moves reader).exceeded worn.exceeded
      rcases eat_cases closer reader with ⟨leaf, next, isKind, _⟩ | missed
      · have notCloser := worn.next leaf next
        rw [isKind] at notCloser
        cases isCloser with
        | inl isParen => exact absurd isParen notCloser.1
        | inr isBracket => exact absurd isBracket notCloser.2
      · -- One look found no closing token, the other one is for the report.
        simp only [Tree.close, run_bind, missed] at counts exceeded ⊢
        refine ⟨exceeded, counts, ?_, worn.next⟩
        have looks := worn.looks
        show 2 * (most - depth) + 1 ≤ reader.looks + 1 + 1
        omega

end Fresh

/-! ## Groups -/

section Groups

variable {reader : Reader} {most depth : Nat}

/-- A group is opened below the limit, and refused at the limit. -/
theorem Reader.Fresh.mayOpen (fresh : reader.Fresh most) (depth : Nat) :
    (depth < most ∧ (mayOpen depth).run reader = (true, reader)) ∨
      (most ≤ depth ∧ (mayOpen depth).run reader = (false, reader.exceed .depth)) := by
  by_cases below : depth < most
  · left
    refine ⟨below, mayOpen_admitted ?_⟩
    intro limit isLimit
    rw [fresh.depth] at isLimit
    cases isLimit
    exact below
  · right
    refine ⟨Nat.le_of_not_lt below, mayOpen_refused ?_⟩
    intro admits
    exact below (admits most fresh.depth)

/-- A reader that is refused a group wears from here on. -/
theorem Reader.Fresh.refused (fresh : reader.Fresh most) (reached : most ≤ depth)
    (looked : 1 ≤ reader.looks) {leaf : Leaf} (next : reader.rest.head? = some leaf)
    (notParen : leaf.kind ≠ .parenClose) (notBracket : leaf.kind ≠ .bracketClose) :
    (reader.exceed .depth).Wears most depth := by
  right
  refine ⟨Option.isSome_iff_ne_none.mpr (Reader.exceeded_exceed _ _), fresh.counts, ?_, ?_⟩
  · rw [Nat.sub_eq_zero_of_le reached]
    exact looked
  · intro other isNext
    rw [Reader.rest_exceed, next] at isNext
    cases isNext
    exact ⟨notParen, notBracket⟩

theorem wears_kindTestWith {inner : Reading (List Argument)} {keyword opener : Leaf}
    (fresh : reader.Fresh most) (looked : 1 ≤ reader.looks)
    (next : reader.rest.head? = some keyword) (isName : keyword.kind = .name)
    (second : reader.rest.tail ≠ [])
    (innerWears : ∀ inside : Reader, inside.Fresh most →
      (inner.run inside).2.Wears most (depth + 1)) :
    ((kindTestWith inner depth keyword opener).run reader).2.Wears most depth := by
  simp only [kindTestWith, run_bind]
  cases fresh.mayOpen depth with
  | inl opened =>
      simp only [opened.2, if_true, run_bind, run_advance, run_look, run_pure]
      have inside : reader.step.spend.step.Fresh most :=
        (fresh.step (rest_ne_nil_of_head next)).spend.step (by simpa using second)
      exact (innerWears _ inside).close opened.1 (.inl rfl) _ _ rfl
  | inr refused =>
      rw [refused.2]
      apply fresh.refused refused.1 looked next <;> rw [isName] <;> decide

/-- Past a limit no arguments are read. -/
theorem arguments_exceeded (fuel depth : Nat) (hit : reader.exceeded.isSome = true) :
    (arguments fuel depth).run reader = ([], reader) := by
  cases fuel with
  | zero => rfl
  | succ fuel =>
      rw [arguments, run_ifEnded, if_pos (by simp [Reader.hasEnded, hit])]
      rfl

theorem wears_arguments (fuel : Nat) (fresh : reader.Fresh most) :
    ((arguments fuel depth).run reader).2.Wears most depth := by
  induction fuel generalizing depth reader with
  | zero => exact .inl fresh
  | succ fuel ih =>
      simp only [arguments, run_ifEnded]
      split
      · exact .inl fresh
      simp only [lookFor_then]
      split
      · exact .inl fresh.spend
      rename_i leaf found
      have isNext := (head_of_filter (!·.endsArguments) found).1
      have next : reader.spend.spend.rest ≠ [] := rest_ne_nil_of_filter found
      have looked := fresh.spend.spend
      simp only [look_then]
      split
      · rename_i isName
        simp only [secondIf_then]
        split
        · rename_i opener second
          simp only [run_bind, run_pure]
          have wears : ((kindTestWith (arguments fuel (depth + 1)) depth leaf opener).run
              reader.spend.spend).2.Wears most depth :=
            wears_kindTestWith looked (Nat.succ_pos _) isNext isName
              (rest_ne_nil_of_second second) (fun inside insideFresh => ih insideFresh)
          cases wears with
          | inl fresh => exact ih fresh
          | inr worn =>
              rw [arguments_exceeded fuel depth worn.exceeded]
              exact .inr worn
        · simp only [run_bind, run_pure]
          exact ih (looked.nameTest leaf next)
      · simp only [run_bind, run_pure]
        exact ih (looked.nameTest leaf next)
      all_goals simp only [run_bind, run_advance, run_pure]
      · exact ih (looked.step next)
      · exact ih (looked.step next)
      · exact ih (looked.step next)
      · exact ih (looked.stray leaf next)

theorem wears_predicateWith {inner : Reading (List PredicateItem)} {opener : Leaf}
    (fresh : reader.Fresh most) (looked : 1 ≤ reader.looks)
    (next : reader.rest.head? = some opener) (isOpener : opener.kind = .bracketOpen)
    (innerWears : ∀ inside : Reader, inside.Fresh most →
      (inner.run inside).2.Wears most (depth + 1)) :
    ((predicateWith inner depth opener).run reader).2.Wears most depth := by
  simp only [predicateWith, run_bind]
  cases fresh.mayOpen depth with
  | inl opened =>
      simp only [opened.2, if_true, run_bind, run_advance, run_look, run_pure]
      have onward : reader.spend.rest ≠ [] := rest_ne_nil_of_head next
      have inside : reader.spend.step.Fresh most := fresh.spend.step onward
      exact (innerWears _ inside).close opened.1 (.inr rfl) _ _ rfl
  | inr refused =>
      rw [refused.2]
      apply fresh.refused refused.1 looked next <;> rw [isOpener] <;> decide

/-- Past a limit no contents of a predicate are read. -/
theorem predicateItems_exceeded (fuel depth : Nat) (hit : reader.exceeded.isSome = true) :
    (predicateItems fuel depth).run reader = ([], reader) := by
  cases fuel with
  | zero => rfl
  | succ fuel =>
      rw [predicateItems, run_ifEnded, if_pos (by simp [Reader.hasEnded, hit])]
      rfl

theorem wears_predicateItems (fuel : Nat) (fresh : reader.Fresh most) :
    ((predicateItems fuel depth).run reader).2.Wears most depth := by
  induction fuel generalizing depth reader with
  | zero => exact .inl fresh
  | succ fuel ih =>
      simp only [predicateItems, run_ifEnded]
      split
      · exact .inl fresh
      simp only [look_then]
      split
      · exact .inl fresh.spend
      rename_i leaf isNext
      split
      · exact .inl fresh.spend
      · rename_i isOpener
        simp only [run_bind, run_pure]
        have wears : ((predicateWith (predicateItems fuel (depth + 1)) depth leaf).run
            reader.spend).2.Wears most depth :=
          wears_predicateWith fresh.spend (Nat.succ_pos _) isNext isOpener
            (fun inside insideFresh => ih insideFresh)
        cases wears with
        | inl fresh => exact ih fresh
        | inr worn =>
            rw [predicateItems_exceeded fuel depth worn.exceeded]
            exact .inr worn
      · simp only [run_bind, run_advance, run_pure]
        exact ih (fresh.spend.step (rest_ne_nil_of_head isNext))

/-- A reader that leaves 128 groups behind is stuck. -/
theorem Reader.Wears.exhausted (wears : reader.Wears most 0) (many : 128 ≤ most) :
    reader.Fresh most ∨ reader.stuck = true := by
  apply wears.imp_right
  intro worn
  have looks := worn.looks
  have bound : patience = 256 := rfl
  cases worn.counts with
  | inl isStuck => exact isStuck
  | inr few => omega

end Groups

/-! ## Paths -/

section Paths

variable {α β : Type} {reader : Reader} {most : Nat}

/-- A reading of a reader with at least 128 groups allowed hits no limit, or the reader gets
stuck. -/
def Exhausts (most : Nat) (reading : Reading α) (reader : Reader) : Prop :=
  (reading.run reader).2.Fresh most ∨ (reading.run reader).2.stuck = true

theorem Exhausts.bind {first : Reading α} {next : α → Reading β}
    (exhausts : Exhausts most first reader)
    (moves : ∀ value later, Moves later ((next value).run later).2)
    (onward : (first.run reader).2.Fresh most →
      Exhausts most (next (first.run reader).1) (first.run reader).2) :
    Exhausts most (first >>= next) reader := by
  cases exhausts with
  | inl fresh => exact onward fresh
  | inr isStuck => exact .inr ((moves _ _).stuck isStuck)

variable (many : 128 ≤ most)
include many

theorem exhausts_predicates (fuel : Nat) (fresh : reader.Fresh most) :
    Exhausts most (predicates fuel) reader := by
  induction fuel generalizing reader with
  | zero => exact .inl fresh
  | succ fuel ih =>
      simp only [Exhausts, predicates, run_ifHalted]
      split
      · exact .inl fresh
      simp only [lookFor_then]
      split
      · exact .inl fresh.spend
      rename_i opener found
      obtain ⟨next, isOpener⟩ := head_of_filter (fun other => decide (other = .bracketOpen)) found
      have wears : ((predicateWith (predicateItems fuel 1) 0 opener).run
          reader.spend).2.Wears most 0 :=
        wears_predicateWith fresh.spend (Nat.succ_pos _) next (of_decide_eq_true isOpener)
          (fun inside insideFresh => wears_predicateItems fuel insideFresh)
      apply Exhausts.bind (wears.exhausted many)
      · intro predicate later
        exact moves_predicates fuel later
      · intro onward
        exact ih onward

theorem exhausts_nodeTest (fuel : Nat) (context : String) (fresh : reader.Fresh most) :
    Exhausts most (nodeTest fuel context) reader := by
  simp only [Exhausts, nodeTest, look_then]
  split
  · exact .inl (fresh.spend.reportHere _ _ rfl)
  rename_i leaf isNext
  have next : reader.spend.rest ≠ [] := rest_ne_nil_of_head isNext
  split
  · rename_i isName
    simp only [secondIf_then]
    split
    · rename_i opener second
      have wears : ((kindTestWith (arguments fuel 1) 0 leaf opener).run
          reader.spend).2.Wears most 0 :=
        wears_kindTestWith fresh.spend (Nat.succ_pos _) isNext isName
          (rest_ne_nil_of_second second)
          (fun inside insideFresh => wears_arguments fuel insideFresh)
      exact wears.exhausted many
    · exact .inl (fresh.spend.nameTest leaf next)
  · exact .inl (fresh.spend.nameTest leaf next)
  · exact .inl (fresh.spend.reportHere _ _ rfl)

theorem exhausts_stepBody (fuel : Nat) (fresh : reader.Fresh most) :
    Exhausts most (stepBody fuel) reader := by
  simp only [Exhausts, stepBody, look_then]
  split
  · exact exhausts_nodeTest many fuel _ fresh.spend
  rename_i leaf isNext
  have next : reader.spend.rest ≠ [] := rest_ne_nil_of_head isNext
  have onward := fresh.spend.step next
  split
  · exact .inl onward
  · exact .inl onward
  · simp only [advance_then]
    exact exhausts_nodeTest many fuel _ onward
  · simp only [secondIf_then]
    split
    · rename_i colons second
      simp only [advance_then]
      exact exhausts_nodeTest many fuel _
        (onward.step (by simpa using rest_ne_nil_of_second second))
    · exact exhausts_nodeTest many fuel _ fresh.spend
  · exact exhausts_nodeTest many fuel _ fresh.spend

theorem exhausts_step (fuel : Nat) (fresh : reader.Fresh most) :
    Exhausts most (step fuel) reader := by
  simp only [Exhausts, step, takeBlanks_then, offset_then]
  apply (exhausts_stepBody many fuel fresh.placeBlanks).bind
  · intro body later
    exact moves_predicates fuel later
  · intro onward
    exact exhausts_predicates many fuel onward

theorem exhausts_stepIfAny (fuel : Nat) (fresh : reader.Fresh most) :
    Exhausts most (stepIfAny fuel) reader := by
  simp only [Exhausts, stepIfAny, lookFor_then]
  split
  · exact exhausts_step many fuel fresh.spend
  · rw [run_ifEnded]
    split
    · exact .inl (fresh.spend.reportHere _ _ rfl)
    · exact .inl (fresh.spend.reportHere _ _ rfl)

theorem exhausts_laterParts (fuel : Nat) (fresh : reader.Fresh most) :
    Exhausts most (laterParts fuel) reader := by
  induction fuel generalizing reader with
  | zero => exact .inl fresh
  | succ fuel ih =>
      simp only [Exhausts, laterParts, run_ifHalted]
      split
      · exact .inl fresh
      simp only [lookFor_then]
      split
      · exact .inl fresh.spend
      · rename_i separator found
        simp only [advance_then]
        have onward := fresh.spend.step (rest_ne_nil_of_filter found)
        apply (exhausts_stepIfAny many fuel onward).bind
        · intro step later
          exact moves_laterParts fuel later
        · intro onward
          exact ih onward

theorem exhausts_partsFromStep (fuel : Nat) (fresh : reader.Fresh most) :
    Exhausts most (partsFromStep fuel) reader := by
  apply (exhausts_stepIfAny many fuel fresh).bind
  · intro step later
    exact moves_laterParts fuel later
  · intro onward
    exact exhausts_laterParts many fuel onward

theorem exhausts_pathIfAny (fuel : Nat) (fresh : reader.Fresh most) :
    Exhausts most (pathIfAny fuel) reader := by
  have placed := fresh.placeBlanks
  simp only [Exhausts, pathIfAny, run_ifEnded]
  split
  · exact .inl (fresh.reportHere _ _ rfl)
  simp only [path, run_bind, run_takeBlanks, run_offset, run_pure]
  simp only [pathParts, lookFor_then]
  split
  · exact exhausts_partsFromStep many fuel placed.spend
  · rename_i separator found
    have onward := placed.spend.spend.step (rest_ne_nil_of_filter found)
    simp only [look_then, advance_then, ended_then]
    split
    · exact .inl onward
    · exact exhausts_partsFromStep many fuel onward

theorem exhausts_root (fuel : Nat) (fresh : reader.Fresh most) :
    Exhausts most (root fuel) reader := by
  apply (exhausts_pathIfAny many fuel fresh).bind
  · intro path later
    exact moves_surplusIfAny later
  · intro onward
    have surplus := onward.run (agrees_surplusIfAny onward.room)
      (fun other _ => moves_surplusIfAny other)
    exact .inl surplus

end Paths

/-! ## Texts -/

section Text

variable {limits : Limits} {text : String} {most : Nat}

/-- A text that nests deeper than a limit of at most 83 groups is refused for it. -/
theorem parse_refused (isLimit : limits.depth = some most) (few : most ≤ 83)
    (tokens : limits.AdmitsTokens (Token.significant text).length) (deeper : most < nesting text) :
    parse limits text = .error (.limit .depth) := by
  have hit : (readText limits text).2.exceeded = some .depth := by
    apply exceeded_readText_depth tokens
    intro admits
    exact Nat.not_le_of_lt deeper (admits most isLimit)
  have notStuck := parse_ne_stuck limits text (.inl ⟨most, few, isLimit⟩)
  rw [parse_eq, outcome, hit] at notStuck ⊢
  cases isStuck : (readText limits text).2.stuck with
  | false => rfl
  | true => simp [isStuck] at notStuck

/-- A text that nests deeper than a limit of at least 128 groups gets its reader stuck. -/
theorem parse_stuck (isLimit : limits.depth = some most) (many : 128 ≤ most)
    (tokens : limits.AdmitsTokens (Token.significant text).length) (deeper : most < nesting text) :
    parse limits text = .error .stuck := by
  have fresh : (Reader.ofText limits text).Fresh most :=
    ⟨Reader.hasRoom_ofText tokens, isLimit, rfl, .inr (Nat.zero_le _)⟩
  have ends : Exhausts most (root ((Token.significant text).length + 1)) (.ofText limits text) :=
    exhausts_root many _ fresh
  rw [parse_eq, outcome]
  cases ends with
  | inl unhit =>
      have admitted := exceeded_readText.mp unhit.before
      exact absurd (admitted.depth most isLimit) (Nat.not_le_of_lt deeper)
  | inr isStuck => exact if_pos isStuck

end Text

end PathCover.Tree
