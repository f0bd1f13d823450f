import PathCover.Proofs.Tree.Moves
import PathCover.Proofs.Tree.Nesting
import PathCover.Proofs.Tree.Start

/-!
# What limits change

A limit that is not hit changes nothing: the limited reader goes through the very states of an
unlimited one.  Where the tokens are within their limit, the depth limit is hit exactly if the
groups of the unlimited tree nest deeper than it allows.  So both sides of each production are
compared here: a production obeys the limits if it agrees with its unlimited run as long as that
run stays within them, and hits a limit otherwise.
-/

namespace PathCover.Tree

open Element

/-- A number of open groups that the depth limit allows. -/
def Limits.AdmitsDepth (limits : Limits) (depth : Nat) : Prop :=
  ∀ most ∈ limits.depth, depth ≤ most

/-- A number of consumed tokens that the token limit allows. -/
def Limits.AdmitsTokens (limits : Limits) (count : Nat) : Prop :=
  ∀ most ∈ limits.tokens, count ≤ most

theorem Limits.AdmitsDepth.mono {limits : Limits} {depth deeper : Nat}
    (admits : limits.AdmitsDepth deeper) (atMost : depth ≤ deeper) : limits.AdmitsDepth depth := by
  intro most isMost
  exact Nat.le_trans atMost (admits most isMost)

theorem Limits.AdmitsTokens.mono {limits : Limits} {count more : Nat}
    (admits : limits.AdmitsTokens more) (atMost : count ≤ more) : limits.AdmitsTokens count := by
  intro most isMost
  exact Nat.le_trans atMost (admits most isMost)

namespace Reader

/-- The same reader without limits. -/
def unlimited (reader : Reader) : Reader := { reader with limits := .none }

/-- The tokens of a reader, consumed or not, are within the token limit. -/
def HasRoom (reader : Reader) : Prop :=
  reader.limits.AdmitsTokens (reader.consumed + reader.rest.length)

/-- A reader is spent if one more token is more than it may consume. -/
theorem isSpent_eq_false_iff {reader : Reader} :
    reader.isSpent = false ↔ reader.limits.AdmitsTokens (reader.consumed + 1) := by
  rw [isSpent]
  cases isLimit : reader.limits.tokens with
  | none =>
      constructor
      · intro _ most isMost
        cases isLimit.symm.trans isMost
      · intro _
        rfl
  | some most =>
      constructor
      · intro notSpent other isMost
        cases isLimit.symm.trans isMost
        exact Nat.lt_of_not_le (of_decide_eq_false notSpent)
      · intro admits
        exact decide_eq_false (Nat.not_le_of_lt (admits most isLimit))

end Reader

/-! ## What moves keep -/

section Keep

variable {first reader : Reader}

theorem Moves.limits (moves : Moves first reader) : reader.limits = first.limits := by
  induction moves with
  | done => rfl
  | look _ ih => exact ih
  | advance _ _ ih => rw [Reader.limits_step, ih]
  | exceed _ _ ih => exact ih
  | placeBlanks _ ih => rw [Reader.limits_placeBlanks, ih]
  | note _ _ _ _ ih => exact ih

/-- A limit that was hit stays hit. -/
theorem Moves.exceeded (moves : Moves first reader) (hit : first.exceeded.isSome = true) :
    reader.exceeded.isSome = true := by
  induction moves with
  | done => exact hit
  | look _ ih => exact ih
  | advance earlier _ ih =>
      rw [Option.isSome_iff_ne_none]
      intro within
      rw [Reader.exceeded_step _ within] at ih
      cases ih
  | exceed _ _ _ => exact Option.isSome_iff_ne_none.mpr (Reader.exceeded_exceed _ _)
  | placeBlanks _ ih => rw [Reader.exceeded_placeBlanks, ih]
  | note _ _ _ _ ih => exact ih

/-- Every consumed token was there before. -/
theorem Moves.count (moves : Moves first reader) :
    reader.consumed + reader.rest.length = first.consumed + first.rest.length := by
  induction moves with
  | done => rfl
  | look _ ih => exact ih
  | @advance reader _ next ih =>
      have left := List.length_pos_iff.mpr next
      rw [Reader.consumed_step, Reader.rest_step, List.length_tail]
      omega
  | exceed _ _ ih => exact ih
  | placeBlanks _ ih =>
      rw [Reader.consumed_placeBlanks, Reader.length_rest_placeBlanks, ih]
  | note _ _ _ _ ih => exact ih

theorem Moves.hasRoom (moves : Moves first reader) (room : first.HasRoom) : reader.HasRoom := by
  rw [Reader.HasRoom, moves.limits, moves.count]
  exact room

end Keep

/-! ## Agreement -/

section Agreement

variable {α β γ : Type} {reader : Reader}

/-- A reading does the same to a reader and to the one without limits. -/
structure Agrees (reading : Reading α) (reader : Reader) : Prop where
  limits : (reading.run reader).2.limits = reader.limits
  unlimited : reading.run reader.unlimited =
    ((reading.run reader).1, (reading.run reader).2.unlimited)

theorem Agrees.pure (value : α) : Agrees (Pure.pure value : Reading α) reader := ⟨rfl, rfl⟩

theorem Agrees.bind {first : Reading α} {next : α → Reading β} (agrees : Agrees first reader)
    (onward : Agrees (next (first.run reader).1) (first.run reader).2) :
    Agrees (first >>= next) reader := by
  constructor
  · rw [run_bind, onward.limits, agrees.limits]
  · rw [run_bind, agrees.unlimited]
    exact onward.unlimited

/-- What does not depend on the limits may be read off the state. -/
theorem Agrees.get {next : Reader → Reading β} (same : next reader.unlimited = next reader)
    (onward : Agrees (next reader) reader) : Agrees (MonadState.get >>= next) reader := by
  constructor
  · exact onward.limits
  · rw [get_then, same, onward.unlimited]
    rfl

theorem agrees_look : Agrees look reader := ⟨rfl, rfl⟩

theorem agrees_lookFor (accepted : TokenKind → Bool) : Agrees (lookFor accepted) reader :=
  ⟨rfl, rfl⟩

theorem agrees_secondIf (kind : TokenKind) : Agrees (secondIf kind) reader := ⟨rfl, rfl⟩

theorem agrees_ended : Agrees ended reader := ⟨rfl, rfl⟩

theorem agrees_halted : Agrees halted reader := ⟨rfl, rfl⟩

theorem agrees_offset : Agrees offset reader := ⟨rfl, rfl⟩

theorem agrees_lookSpan : Agrees lookSpan reader := ⟨rfl, rfl⟩

theorem agrees_reportAt (place : Nat) (diagnostic : Diagnostic) :
    Agrees (reportAt place diagnostic) reader := ⟨rfl, rfl⟩

theorem agrees_reportHere (kind : DiagnosticKind) (detail : Option String) :
    Agrees (reportHere kind detail) reader := ⟨rfl, rfl⟩

theorem agrees_takeBlanks : Agrees takeBlanks reader := by
  constructor
  · exact Reader.limits_placeBlanks reader
  · cases reader with
    | mk rest => cases rest <;> rfl

/-- Below the token limit a token is consumed as without it. -/
theorem agrees_advance (room : reader.HasRoom) (next : reader.rest ≠ []) :
    Agrees advance reader := by
  have notSpent : reader.isSpent = false := by
    apply Reader.isSpent_eq_false_iff.mpr
    exact room.mono (Nat.add_le_add_left (List.length_pos_iff.mpr next) _)
  constructor
  · exact Reader.limits_step reader
  · rw [run_advance, run_advance, Reader.step, Reader.step, notSpent]
    rfl

theorem agrees_eat (kind : TokenKind) (room : reader.HasRoom) : Agrees (eat kind) reader := by
  apply (agrees_lookFor _).bind
  rw [run_lookFor]
  split
  · exact .pure _
  · rename_i leaf found
    have consumes : Agrees advance reader.spend :=
      agrees_advance room (rest_ne_nil_of_filter found)
    exact consumes.bind (.pure _)

theorem agrees_close (closer : TokenKind) (kind : DiagnosticKind) (detail : String)
    (opener : Token) (room : reader.HasRoom) :
    Agrees (close closer kind detail opener) reader := by
  apply (agrees_eat closer room).bind
  split
  · exact .pure _
  · exact agrees_lookSpan.bind ((agrees_reportAt _ _).bind (.pure _))

theorem agrees_nameTest (first : Leaf) (room : reader.HasRoom) (next : reader.rest ≠ []) :
    Agrees (nameTest first) reader := by
  have onward : Moves reader reader.step := .advance .done next
  apply (agrees_advance room next).bind
  apply (agrees_eat .colon (onward.hasRoom room)).bind
  split
  · exact .pure _
  · apply (agrees_lookFor _).bind
    rw [run_lookFor]
    split
    · rename_i second found
      have toColon := onward.andThen (moves_eat .colon reader.step)
      exact (agrees_advance ((Moves.look toColon).hasRoom room)
        (rest_ne_nil_of_filter found)).bind (.pure _)
    · exact (agrees_reportHere _ _).bind (.pure _)

theorem agrees_stray (leaf : Leaf) (room : reader.HasRoom) (next : reader.rest ≠ []) :
    Agrees (stray leaf) reader := by
  apply agrees_look.bind
  apply (agrees_reportHere _ _).bind
  have consumes : Agrees advance (reader.spend.spend.note reader.nextSpan.start
      (.plain .unexpectedToken reader.nextSpan (some ("`" ++ leaf.token.text ++ "`")))) :=
    agrees_advance room next
  exact consumes.bind (.pure _)

end Agreement

/-! ## Obedience -/

section Obedience

variable {α β γ : Type} {reader : Reader}

/-- A reading agrees with its unlimited run where the depth that this run reaches is allowed, and
hits a limit where it is not. -/
structure Obeys (reading : Reading α) (reached : α → Nat) (reader : Reader) : Prop where
  agrees : reader.limits.AdmitsDepth (reached (reading.run reader.unlimited).1) →
    Agrees reading reader
  exceeds : ¬ reader.limits.AdmitsDepth (reached (reading.run reader.unlimited).1) →
    (reading.run reader).2.exceeded.isSome = true

theorem Agrees.obeys {reading : Reading α} {reached : α → Nat} (agrees : Agrees reading reader)
    (admits : reader.limits.AdmitsDepth (reached (reading.run reader).1)) :
    Obeys reading reached reader := by
  constructor
  · intro _
    exact agrees
  · intro notAdmitted
    rw [agrees.unlimited] at notAdmitted
    exact absurd admits notAdmitted

/-- What comes behind a reading that agrees decides. -/
theorem Agrees.then {first : Reading α} {next : α → Reading β} {reached : β → Nat}
    (agrees : Agrees first reader)
    (onward : Obeys (next (first.run reader).1) reached (first.run reader).2) :
    Obeys (first >>= next) reached reader := by
  constructor
  · intro admitted
    rw [run_bind, agrees.unlimited, ← agrees.limits] at admitted
    exact agrees.bind (onward.agrees admitted)
  · intro notAdmitted
    rw [run_bind, agrees.unlimited, ← agrees.limits] at notAdmitted
    exact onward.exceeds notAdmitted

/-- What comes behind a reading decides where the reading itself stays within the depth limit. -/
theorem Obeys.bind {first : Reading α} {next : α → Reading β} {reached₁ : α → Nat}
    {reached : β → Nat} (firstObeys : Obeys first reached₁ reader)
    (deeper : ∀ value later, reached₁ value ≤ reached ((next value).run later).1)
    (moves : ∀ value later, Moves later ((next value).run later).2)
    (onward : reader.limits.AdmitsDepth (reached₁ (first.run reader).1) → Agrees first reader →
      Obeys (next (first.run reader).1) reached (first.run reader).2) :
    Obeys (first >>= next) reached reader := by
  by_cases admitted : reader.limits.AdmitsDepth (reached₁ (first.run reader.unlimited).1)
  · have agrees := firstObeys.agrees admitted
    rw [agrees.unlimited] at admitted
    exact agrees.then (onward admitted agrees)
  · constructor
    · intro reachedAdmitted
      exact absurd (reachedAdmitted.mono (deeper _ _)) admitted
    · intro _
      exact (moves _ _).exceeded (firstObeys.exceeds admitted)

/-- A reading that agrees behind another one makes no difference. -/
theorem Obeys.followed {first : Reading α} {second : Reading β} {combine : α → β → γ}
    {reached₁ : α → Nat} {reached : γ → Nat} (firstObeys : Obeys first reached₁ reader)
    (agrees : Agrees second (first.run reader).2)
    (moves : ∀ later, Moves later (second.run later).2)
    (same : ∀ one other, reached (combine one other) = reached₁ one) :
    Obeys (first >>= fun one => second >>= fun other => pure (combine one other))
      reached reader := by
  apply firstObeys.bind
  · intro one later
    exact Nat.le_of_eq (same one _).symm
  · intro one later
    exact moves later
  · intro admitted firstAgrees
    refine Agrees.obeys (agrees.bind (.pure _)) ?_
    rw [firstAgrees.limits, run_bind, run_pure, same]
    exact admitted

/-- Of two readings in a row the one that reaches deeper decides. -/
theorem Obeys.both {first : Reading α} {second : Reading β} {combine : α → β → γ}
    {reached₁ : α → Nat} {reached₂ : β → Nat} {reached : γ → Nat}
    (firstObeys : Obeys first reached₁ reader)
    (secondObeys : Obeys second reached₂ (first.run reader).2)
    (moves : ∀ later, Moves later (second.run later).2)
    (deeper : ∀ one other, reached (combine one other) = max (reached₁ one) (reached₂ other)) :
    Obeys (first >>= fun one => second >>= fun other => pure (combine one other))
      reached reader := by
  apply firstObeys.bind
  · intro one later
    rw [run_bind, run_pure, deeper]
    exact Nat.le_max_left _ _
  · intro one later
    exact moves later
  · intro admitted firstAgrees
    rw [← firstAgrees.limits] at admitted
    constructor
    · intro reachedAdmitted
      rw [run_bind, run_pure, deeper] at reachedAdmitted
      exact (secondObeys.agrees (reachedAdmitted.mono (Nat.le_max_right _ _))).bind (.pure _)
    · intro notAdmitted
      apply secondObeys.exceeds
      intro secondAdmitted
      apply notAdmitted
      rw [run_bind, run_pure, deeper]
      intro most isMost
      exact Nat.max_le.mpr ⟨admitted most isMost, secondAdmitted most isMost⟩

/-- A change of the value that keeps its depth makes no difference. -/
theorem Obeys.map {reading : Reading α} {change : α → β} {reached : α → Nat}
    {changed : β → Nat} (obeys : Obeys reading reached reader)
    (same : ∀ value, changed (change value) = reached value) :
    Obeys (reading >>= fun value => pure (change value)) changed reader := by
  apply obeys.bind
  · intro value later
    exact Nat.le_of_eq (same value).symm
  · intro value later
    exact .done
  · intro admitted agrees
    apply (Agrees.pure _).obeys
    rw [agrees.limits, run_pure, same]
    exact admitted

end Obedience

/-- A reader inside `depth` open groups whose tokens are within their limit. -/
structure Reader.Ready (reader : Reader) (depth : Nat) : Prop where
  room : reader.HasRoom
  within : reader.limits.AdmitsDepth depth

theorem Moves.ready {first reader : Reader} {depth : Nat} (moves : Moves first reader)
    (ready : first.Ready depth) : reader.Ready depth := by
  constructor
  · exact moves.hasRoom ready.room
  · rw [moves.limits]
    exact ready.within

section Groups

variable {reader : Reader} {depth : Nat}

/-- Without limits every group may be opened. -/
theorem mayOpen_unlimited : (mayOpen depth).run reader.unlimited = (true, reader.unlimited) := rfl

theorem mayOpen_admitted (admits : reader.limits.AdmitsDepth (depth + 1)) :
    (mayOpen depth).run reader = (true, reader) := by
  simp only [mayOpen, StateT.run]
  split
  · rfl
  · rename_i most isLimit
    exact if_neg (Nat.not_le_of_lt (admits most isLimit))

theorem mayOpen_refused (refuses : ¬ reader.limits.AdmitsDepth (depth + 1)) :
    (mayOpen depth).run reader = (false, reader.exceed .depth) := by
  rcases run_mayOpen depth reader with opened | refused
  · apply absurd _ refuses
    intro most isLimit
    simp only [mayOpen, StateT.run, Option.mem_def.mp isLimit] at opened
    split at opened
    · cases opened
    · omega
  · exact refused

/-- What may be opened is opened with or without limits, and what may not be opened reaches too
deep. -/
theorem obeys_mayOpen {α : Type} {opened refused : Reading α} {reached : α → Nat}
    (obeys : reader.limits.AdmitsDepth (depth + 1) → Obeys opened reached reader)
    (deep : ∀ other, depth + 1 ≤ reached (opened.run other).1)
    (stays : ∀ later, Moves later (refused.run later).2) :
    Obeys (mayOpen depth >>= fun may => if may = true then opened else refused)
      reached reader := by
  by_cases admits : reader.limits.AdmitsDepth (depth + 1)
  · have agrees : Agrees (mayOpen depth) reader := by
      constructor
      · rw [mayOpen_admitted admits]
      · rw [mayOpen_admitted admits, mayOpen_unlimited]
    apply agrees.then
    rw [mayOpen_admitted admits]
    exact obeys admits
  · constructor
    · intro admitted
      rw [run_bind, mayOpen_unlimited] at admitted
      exact absurd (admitted.mono (deep _)) admits
    · intro _
      rw [run_bind, mayOpen_refused admits]
      exact (stays _).exceeded (Option.isSome_iff_ne_none.mpr (Reader.exceeded_exceed _ _))

theorem obeys_kindTestWith {inner : Reading (List Argument)} (keyword opener : Leaf)
    (room : reader.HasRoom) (next : reader.rest ≠ []) (second : reader.rest.tail ≠ [])
    (innerObeys : ∀ inside : Reader, inside.Ready (depth + 1) →
      Obeys inner (fun found => depth + 1 + nestingOf (Argument.elementsOf found)) inside)
    (innerMoves : ∀ inside, Moves inside (inner.run inside).2) :
    Obeys (kindTestWith inner depth keyword opener)
      (fun test => depth + nestingOf (optionElements KindTest.elements test)) reader := by
  apply obeys_mayOpen
  · intro admits
    have ready : reader.Ready (depth + 1) := ⟨room, admits⟩
    have onward : Moves reader reader.step := .advance .done next
    have inside : Moves reader reader.step.spend.step :=
      .advance (.look onward) (by simpa using second)
    have consumesOpener : Agrees advance reader.step.spend :=
      agrees_advance (onward.hasRoom room) (by simpa using second)
    apply (agrees_advance room next).then
    apply agrees_look.then
    apply consumesOpener.then
    apply (innerObeys _ (inside.ready ready)).followed
    · exact agrees_close _ _ _ _ ((inside.andThen (innerMoves _)).hasRoom room)
    · intro later
      exact moves_close _ _ _ _ rfl later
    · intro found closer
      simp only [optionElements, KindTest.nestingOf_elements]
      omega
  · intro other
    simp only [run_bind, run_pure, optionElements, KindTest.nestingOf_elements]
    omega
  · intro later
    exact .done

theorem obeys_nothing {α : Type} {value : α} {reached : α → Nat} (ready : reader.Ready depth)
    (isDepth : reached value = depth) : Obeys (pure value) reached reader := by
  refine Agrees.obeys (.pure value) ?_
  rw [run_pure, isDepth]
  exact ready.within

/-- An argument without groups in it leaves the depth to the arguments behind it. -/
theorem obeys_argument {α : Type} {part : Reading α} {toArgument : α → Argument}
    {later : Reading (List Argument)} (ready : reader.Ready depth) (agrees : Agrees part reader)
    (moves : Moves reader (part.run reader).2)
    (flat : nestingOf (toArgument (part.run reader).1).elements = 0)
    (laterObeys : ∀ behind : Reader, behind.Ready depth →
      Obeys later (fun found => depth + nestingOf (Argument.elementsOf found)) behind) :
    Obeys (part >>= fun one => later >>= fun rest => pure (toArgument one :: rest))
      (fun found => depth + nestingOf (Argument.elementsOf found)) reader := by
  apply agrees.then
  apply (laterObeys _ (moves.ready ready)).map
  intro rest
  rw [Argument.nestingOf_cons, flat, Nat.zero_max]

theorem obeys_arguments (fuel : Nat) (ready : reader.Ready depth) :
    Obeys (arguments fuel depth)
      (fun found => depth + nestingOf (Argument.elementsOf found)) reader := by
  induction fuel generalizing depth reader with
  | zero => exact obeys_nothing ready (by simp)
  | succ fuel ih =>
      have onward : ∀ later, Moves later ((arguments fuel depth).run later).2 :=
        moves_arguments fuel depth
      rw [arguments]
      apply agrees_ended.then
      rw [run_ended]
      split
      · exact obeys_nothing ready (by simp)
      apply (agrees_lookFor _).then
      rw [run_lookFor]
      split
      · exact obeys_nothing (Moves.ready (.look .done) ready) (by simp)
      rename_i leaf found
      have inView : Moves reader reader.spend.spend := .look (.look .done)
      have readyLooked := inView.ready ready
      have next : reader.spend.spend.rest ≠ [] := rest_ne_nil_of_filter found
      have rest : ∀ behind : Reader, behind.Ready depth → Obeys (arguments fuel depth)
          (fun found => depth + nestingOf (Argument.elementsOf found)) behind := by
        intro behind behindReady
        exact ih behindReady
      apply agrees_look.then
      rw [run_look]
      split
      · apply (agrees_secondIf _).then
        rw [run_secondIf]
        split
        · rename_i opener second
          have after := rest_ne_nil_of_second second
          have inner : ∀ inside, Moves inside ((arguments fuel (depth + 1)).run inside).2 :=
            moves_arguments fuel (depth + 1)
          have test := obeys_kindTestWith leaf opener readyLooked.room next after
            (fun inside insideReady => ih insideReady) inner
          have toRest := moves_kindTestWith depth leaf opener _ next after inner
          apply test.both (rest _ (toRest.ready readyLooked)) (moves_arguments fuel depth)
          intro test found
          rw [Argument.nestingOf_toArgument]
          omega
        · exact obeys_argument readyLooked (agrees_nameTest leaf readyLooked.room next)
            (moves_nameTest leaf _ next) (by simp) rest
      · exact obeys_argument readyLooked (agrees_nameTest leaf readyLooked.room next)
          (moves_nameTest leaf _ next) (by simp) rest
      · exact obeys_argument readyLooked (agrees_advance readyLooked.room next)
          (.advance .done next) (by simp) rest
      · exact obeys_argument readyLooked (agrees_advance readyLooked.room next)
          (.advance .done next) (by simp) rest
      · exact obeys_argument readyLooked (agrees_advance readyLooked.room next)
          (.advance .done next) (by simp) rest
      · exact obeys_argument readyLooked (agrees_stray leaf readyLooked.room next)
          (moves_stray leaf _ next) (Argument.nestingOf_stray _ _) rest

theorem obeys_predicateWith {inner : Reading (List PredicateItem)} (opener : Leaf)
    (room : reader.HasRoom) (next : reader.rest ≠ [])
    (innerObeys : ∀ inside : Reader, inside.Ready (depth + 1) →
      Obeys inner (fun found => depth + 1 + nestingOf (PredicateItem.elementsOf found)) inside)
    (innerMoves : ∀ inside, Moves inside (inner.run inside).2) :
    Obeys (predicateWith inner depth opener)
      (fun predicate => depth + nestingOf (optionElements Predicate.elements predicate))
      reader := by
  apply obeys_mayOpen
  · intro admits
    have ready : reader.Ready (depth + 1) := ⟨room, admits⟩
    have inside : Moves reader reader.spend.step := .advance (.look .done) next
    have consumes : Agrees advance reader.spend := agrees_advance room next
    apply agrees_look.then
    apply consumes.then
    apply (innerObeys _ (inside.ready ready)).followed
    · exact agrees_close _ _ _ _ ((inside.andThen (innerMoves _)).hasRoom room)
    · intro later
      exact moves_close _ _ _ _ rfl later
    · intro found closer
      simp only [optionElements, Predicate.nestingOf_elements]
      omega
  · intro other
    simp only [run_bind, run_pure, optionElements, Predicate.nestingOf_elements]
    omega
  · intro later
    exact .done

theorem obeys_predicateItems (fuel : Nat) (ready : reader.Ready depth) :
    Obeys (predicateItems fuel depth)
      (fun found => depth + nestingOf (PredicateItem.elementsOf found)) reader := by
  induction fuel generalizing depth reader with
  | zero => exact obeys_nothing ready (by simp)
  | succ fuel ih =>
      rw [predicateItems]
      apply agrees_ended.then
      rw [run_ended]
      split
      · exact obeys_nothing ready (by simp)
      apply agrees_look.then
      rw [run_look]
      have readyLooked : reader.spend.Ready depth := Moves.ready (.look .done) ready
      split
      · exact obeys_nothing readyLooked (by simp)
      rename_i leaf isNext
      have next : reader.spend.rest ≠ [] := rest_ne_nil_of_head isNext
      split
      · exact obeys_nothing readyLooked (by simp)
      · have inner : ∀ inside, Moves inside ((predicateItems fuel (depth + 1)).run inside).2 :=
          moves_predicateItems fuel (depth + 1)
        have predicate := obeys_predicateWith leaf readyLooked.room next
          (fun inside insideReady => ih insideReady) inner
        have toRest := moves_predicateWith depth leaf _ next inner
        apply predicate.both (ih (toRest.ready readyLooked)) (moves_predicateItems fuel depth)
        intro predicate found
        rw [PredicateItem.nestingOf_toItem]
        omega
      · apply (agrees_advance readyLooked.room next).then
        apply (ih (Moves.ready (.advance .done next) readyLooked)).map
        intro found
        rw [PredicateItem.nestingOf_leaf]

end Groups

/-! ## Paths -/

section Paths

variable {reader : Reader}

theorem obeys_predicates (fuel : Nat) (ready : reader.Ready 0) :
    Obeys (predicates fuel)
      (fun found => nestingOf (found.flatMap Predicate.elements)) reader := by
  induction fuel generalizing reader with
  | zero => exact obeys_nothing ready rfl
  | succ fuel ih =>
      rw [predicates]
      apply agrees_halted.then
      rw [run_halted]
      split
      · exact obeys_nothing ready rfl
      apply (agrees_lookFor _).then
      rw [run_lookFor]
      have readyLooked : reader.spend.Ready 0 := Moves.ready (.look .done) ready
      split
      · exact obeys_nothing readyLooked rfl
      · rename_i opener found
        have next : reader.spend.rest ≠ [] := rest_ne_nil_of_filter found
        have inner : ∀ inside, Moves inside ((predicateItems fuel 1).run inside).2 :=
          moves_predicateItems fuel 1
        have predicate := obeys_predicateWith opener readyLooked.room next
          (fun inside insideReady => obeys_predicateItems fuel insideReady) inner
        have toRest := moves_predicateWith 0 opener _ next inner
        apply predicate.both (ih (toRest.ready readyLooked)) (moves_predicates fuel)
        intro predicate rest
        cases predicate <;> simp [optionElements]

theorem obeys_nodeTest (fuel : Nat) (context : String) (ready : reader.Ready 0) :
    Obeys (nodeTest fuel context)
      (fun test => nestingOf (optionElements NodeTest.elements test)) reader := by
  rw [nodeTest]
  apply agrees_look.then
  rw [run_look]
  have readyLooked : reader.spend.Ready 0 := Moves.ready (.look .done) ready
  split
  · apply (agrees_reportHere _ _).then
    exact obeys_nothing (Moves.ready (moves_reportHere _ rfl _) readyLooked) rfl
  rename_i leaf isNext
  have next : reader.spend.rest ≠ [] := rest_ne_nil_of_head isNext
  split
  · apply (agrees_secondIf _).then
    rw [run_secondIf]
    split
    · rename_i opener second
      apply (obeys_kindTestWith leaf opener readyLooked.room next (rest_ne_nil_of_second second)
        (fun inside insideReady => obeys_arguments fuel insideReady) (moves_arguments fuel 1)).map
      intro test
      cases test <;> simp [optionElements, NodeTest.elements]
    · apply (agrees_nameTest leaf readyLooked.room next).then
      exact obeys_nothing (Moves.ready (moves_nameTest leaf _ next) readyLooked)
        (NameTest.nestingOf_elements _)
  · apply (agrees_nameTest leaf readyLooked.room next).then
    exact obeys_nothing (Moves.ready (moves_nameTest leaf _ next) readyLooked)
      (NameTest.nestingOf_elements _)
  · apply (agrees_reportHere _ _).then
    exact obeys_nothing (Moves.ready (moves_reportHere _ rfl _) readyLooked) rfl

/-- A node test behind an axis, or behind none. -/
theorem obeys_tested (fuel : Nat) (context : String) (axis : Option AxisMark)
    (ready : reader.Ready 0) (flat : nestingOf (optionElements AxisMark.elements axis) = 0) :
    Obeys (nodeTest fuel context >>= fun test => pure (StepBody.tested axis test))
      (fun body => nestingOf body.elements) reader := by
  apply (obeys_nodeTest fuel context ready).map
  intro test
  simp [StepBody.elements, flat]

theorem obeys_stepBody (fuel : Nat) (ready : reader.Ready 0) :
    Obeys (stepBody fuel) (fun body => nestingOf body.elements) reader := by
  rw [stepBody]
  apply agrees_look.then
  rw [run_look]
  have readyLooked : reader.spend.Ready 0 := Moves.ready (.look .done) ready
  split
  · exact obeys_tested fuel _ none readyLooked rfl
  rename_i leaf isNext
  have next : reader.spend.rest ≠ [] := rest_ne_nil_of_head isNext
  have consumes : Agrees advance reader.spend := agrees_advance readyLooked.room next
  have onward : Moves reader.spend reader.spend.step := .advance .done next
  split
  · exact consumes.then (obeys_nothing (onward.ready readyLooked) (by simp [StepBody.elements]))
  · exact consumes.then (obeys_nothing (onward.ready readyLooked) (by simp [StepBody.elements]))
  · exact consumes.then (obeys_tested fuel _ (some (.short leaf)) (onward.ready readyLooked)
      (by simp [optionElements, AxisMark.elements]))
  · apply (agrees_secondIf _).then
    rw [run_secondIf]
    split
    · rename_i colons second
      have after : reader.spend.step.rest ≠ [] := by simpa using rest_ne_nil_of_second second
      have consumesColons : Agrees advance reader.spend.step :=
        agrees_advance (onward.hasRoom readyLooked.room) after
      apply consumes.then
      apply consumesColons.then
      exact obeys_tested fuel _ (some (.named leaf colons))
        (Moves.ready (.advance onward after) readyLooked)
        (by simp [optionElements, AxisMark.elements, NodeKind.isGroup])
    · exact obeys_tested fuel _ none readyLooked rfl
  · exact obeys_tested fuel _ none readyLooked rfl

theorem obeys_step (fuel : Nat) (ready : reader.Ready 0) :
    Obeys (step fuel) (fun step => nestingOf step.elements) reader := by
  have placed : Moves reader reader.placeBlanks := .placeBlanks .done
  rw [step]
  apply agrees_takeBlanks.then
  apply agrees_offset.then
  apply (obeys_stepBody fuel (placed.ready ready)).both
    (obeys_predicates fuel ((placed.andThen (moves_stepBody fuel _)).ready ready))
    (moves_predicates fuel)
  intro body predicates
  simp [Step.elements, Step.element, NodeKind.isGroup]

theorem obeys_stepIfAny (fuel : Nat) (ready : reader.Ready 0) :
    Obeys (stepIfAny fuel)
      (fun step => nestingOf (optionElements Step.elements step)) reader := by
  rw [stepIfAny]
  apply (agrees_lookFor _).then
  rw [run_lookFor]
  have readyLooked : reader.spend.Ready 0 := Moves.ready (.look .done) ready
  split
  · apply (obeys_step fuel readyLooked).map
    intro step
    rfl
  · apply agrees_ended.then
    rw [run_ended]
    split
    · apply (agrees_reportHere _ _).then
      exact obeys_nothing (Moves.ready (moves_reportHere _ rfl _) readyLooked) rfl
    · apply (agrees_reportHere _ _).then
      exact obeys_nothing (Moves.ready (moves_reportHere _ rfl _) readyLooked) rfl

/-- A step in front of other parts of a path. -/
theorem nestingOf_step_parts (step : Option Step) (rest : List PathPart) :
    nestingOf (((step.map PathPart.step).toList ++ rest).flatMap PathPart.elements) =
      max (nestingOf (optionElements Step.elements step))
        (nestingOf (rest.flatMap PathPart.elements)) := by
  cases step <;> simp [optionElements, PathPart.elements]

theorem nestingOf_separator_parts (separator : Leaf) (rest : List PathPart) :
    nestingOf ((PathPart.separator separator :: rest).flatMap PathPart.elements) =
      nestingOf (rest.flatMap PathPart.elements) := by
  simp [PathPart.elements]

theorem obeys_laterParts (fuel : Nat) (ready : reader.Ready 0) :
    Obeys (laterParts fuel)
      (fun parts => nestingOf (parts.flatMap PathPart.elements)) reader := by
  induction fuel generalizing reader with
  | zero => exact obeys_nothing ready rfl
  | succ fuel ih =>
      rw [laterParts]
      apply agrees_halted.then
      rw [run_halted]
      split
      · exact obeys_nothing ready rfl
      apply (agrees_lookFor _).then
      rw [run_lookFor]
      have readyLooked : reader.spend.Ready 0 := Moves.ready (.look .done) ready
      split
      · exact obeys_nothing readyLooked rfl
      · rename_i separator found
        have next : reader.spend.rest ≠ [] := rest_ne_nil_of_filter found
        have onward : Moves reader.spend reader.spend.step := .advance .done next
        have toRest := onward.andThen (moves_stepIfAny fuel _)
        apply (agrees_advance readyLooked.room next).then
        apply (obeys_stepIfAny fuel (onward.ready readyLooked)).both
          (ih (toRest.ready readyLooked)) (moves_laterParts fuel)
        intro step rest
        rw [List.cons_append, nestingOf_separator_parts, nestingOf_step_parts]

theorem obeys_partsFromStep (fuel : Nat) (ready : reader.Ready 0) :
    Obeys (partsFromStep fuel)
      (fun parts => nestingOf (parts.flatMap PathPart.elements)) reader := by
  apply (obeys_stepIfAny fuel ready).both
    (obeys_laterParts fuel ((moves_stepIfAny fuel _).ready ready)) (moves_laterParts fuel)
  exact nestingOf_step_parts

theorem obeys_pathParts (fuel : Nat) (ready : reader.Ready 0) :
    Obeys (pathParts fuel)
      (fun parts => nestingOf (parts.flatMap PathPart.elements)) reader := by
  rw [pathParts]
  apply (agrees_lookFor _).then
  rw [run_lookFor]
  split
  · exact obeys_partsFromStep fuel (Moves.ready (.look .done) ready)
  · rename_i separator found
    have looked : Moves reader reader.spend.spend := .look (.look .done)
    have next : reader.spend.spend.rest ≠ [] := rest_ne_nil_of_filter found
    have consumes : Agrees advance reader.spend.spend :=
      agrees_advance (looked.hasRoom ready.room) next
    have onward : Moves reader reader.spend.spend.step := .advance looked next
    apply agrees_look.then
    apply consumes.then
    apply agrees_ended.then
    split
    · exact obeys_nothing (onward.ready ready) (nestingOf_separator_parts separator [])
    · apply (obeys_partsFromStep fuel (onward.ready ready)).map
      exact nestingOf_separator_parts separator

theorem obeys_path (fuel : Nat) (ready : reader.Ready 0) :
    Obeys (path fuel) (fun path => nestingOf path.elements) reader := by
  apply agrees_takeBlanks.then
  apply agrees_offset.then
  apply (obeys_pathParts fuel (Moves.ready (.placeBlanks .done) ready)).map
  intro parts
  simp [Path.elements, NodeKind.isGroup]

theorem obeys_pathIfAny (fuel : Nat) (ready : reader.Ready 0) :
    Obeys (pathIfAny fuel)
      (fun path => nestingOf (optionElements Path.elements path)) reader := by
  rw [pathIfAny]
  apply agrees_ended.then
  rw [run_ended]
  split
  · apply (agrees_reportHere _ _).then
    exact obeys_nothing (Moves.ready (moves_reportHere _ rfl _) ready) rfl
  · apply (obeys_path fuel ready).map
    intro path
    rfl

theorem agrees_forM_advance (leaves : List Leaf) (room : reader.HasRoom)
    (enough : leaves.length ≤ reader.rest.length) :
    Agrees (leaves.forM fun _ => advance) reader := by
  induction leaves generalizing reader with
  | nil => exact .pure _
  | cons leaf leaves ih =>
      rw [List.length_cons] at enough
      have next : reader.rest ≠ [] := List.ne_nil_of_length_pos (by omega)
      have onward : Moves reader reader.step := .advance .done next
      have later := ih (onward.hasRoom room) (by rw [Reader.rest_step, List.length_tail]; omega)
      exact (agrees_advance room next).bind later

theorem agrees_surplus (room : reader.HasRoom) : Agrees surplus reader := by
  have placed : reader.placeBlanks.HasRoom := Moves.hasRoom (.placeBlanks .done) room
  have consumes : Agrees (reader.placeBlanks.rest.forM fun _ => advance) reader.placeBlanks :=
    agrees_forM_advance _ placed (Nat.le_refl _)
  apply agrees_takeBlanks.bind
  apply agrees_offset.bind
  apply Agrees.get
  · rfl
  · exact consumes.bind (.pure _)

theorem agrees_surplusIfAny (room : reader.HasRoom) : Agrees surplusIfAny reader := by
  rw [surplusIfAny]
  apply agrees_ended.bind
  rw [run_ended]
  split
  · exact .pure _
  · apply agrees_look.bind
    apply (agrees_reportHere _ _).bind
    refine Agrees.bind (agrees_surplus ?_) (.pure _)
    have looked : Moves reader reader.spend := .look .done
    exact (looked.andThen (moves_reportHere _ rfl _)).hasRoom room

theorem obeys_root (fuel : Nat) (ready : reader.Ready 0) :
    Obeys (root fuel) (fun root => root.element.nesting) reader := by
  have agrees := agrees_surplusIfAny ((moves_pathIfAny fuel reader).hasRoom ready.room)
  apply (obeys_pathIfAny fuel ready).bind
  · intro path later
    exact Nat.le_of_eq (Root.nesting_element path _ _).symm
  · intro path later
    exact moves_surplusIfAny later
  · intro admitted pathAgrees
    refine Agrees.obeys (agrees.bind (.get rfl (.pure _))) ?_
    rw [pathAgrees.limits]
    exact admitted.mono (Nat.le_of_eq (Root.nesting_element _ _ _))

end Paths

end PathCover.Tree
