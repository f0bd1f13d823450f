import PathCover.Proofs.Tree.Reading

/-!
# The course of a reading

Every part of the grammar is made of the same few moves of a reader.  A course is a sequence of such
moves together with the diagnostics that were raised on the way, each with the place about which it
was raised.  A diagnostic is about the next token, unless a group is found open there: then it is
about everything from the token that opened the group, and the course in between is part of what the
move says.
-/

namespace PathCover

/-- The token that opens the groups that a kind of diagnostic finds open. -/
def DiagnosticKind.opener? : DiagnosticKind → Option TokenKind
  | .unclosedPredicate => some .bracketOpen
  | .unclosedKindTest => some .parenOpen
  | _ => none

namespace Tree

/-- A diagnostic, and where the next token started when it was raised. -/
structure Raised where
  place : Nat
  diagnostic : Diagnostic
  deriving DecidableEq

namespace Reader

/-- What a diagnostic about the next token adds to a report: nothing right after another one about
the same place. -/
def raise (reader : Reader) (diagnostic : Diagnostic) : List Raised :=
  if reader.reported = some reader.offset then [] else [⟨reader.offset, diagnostic⟩]

/-- The diagnostic about a group that is still open at the next token. -/
def unclosed (reader : Reader) (kind : DiagnosticKind) (detail : String) (opener : Token) :
    Diagnostic :=
  ⟨kind, ⟨opener.start, reader.nextSpan.stop⟩, kind.message (some detail),
    [⟨"opened here", opener.span⟩]⟩

@[simp] theorem nextSpan_start (reader : Reader) : reader.nextSpan.start = reader.offset := by
  unfold nextSpan offset
  split <;> rfl

end Reader

/-- The moves that lead from one reader to another by looking, consuming a token that is there,
hitting the depth limit that there is, placing blanks and reporting errors, with the diagnostics
that are raised. -/
inductive Course : Reader → List Raised → Reader → Prop where
  | done {reader : Reader} : Course reader [] reader
  | look {reader : Reader} : Course reader [] reader.spend
  | advance {reader : Reader} (next : reader.rest ≠ []) : Course reader [] reader.step
  | exceed {reader : Reader} (limited : reader.limits.depth ≠ none) :
      Course reader [] (reader.exceed .depth)
  | placeBlanks {reader : Reader} : Course reader [] reader.placeBlanks
  /-- An error at the next token. -/
  | report {reader : Reader} (kind : DiagnosticKind) (detail : Option String)
      (error : kind.severity = .error) (noGroup : kind.opener? = none) :
      Course reader (reader.raise (.plain kind reader.nextSpan detail))
        (reader.note reader.offset (.plain kind reader.nextSpan detail))
  /-- A token that opens a group, what is read behind it, and an error because the group is still
  open. -/
  | unclosed {reader later : Reader} {opener : Leaf} {raised : List Raised}
      (kind : DiagnosticKind) (detail : String) (opens : kind.opener? = some opener.kind)
      (next : reader.rest.head? = some opener) (inside : Course reader.step raised later) :
      Course reader (raised ++ later.raise (later.unclosed kind detail opener.token))
        (later.note later.offset (later.unclosed kind detail opener.token))
  | append {first middle later : Reader} {raised others : List Raised}
      (earlier : Course first raised middle) (behind : Course middle others later) :
      Course first (raised ++ others) later

/-- The readers that a reader can become on some course. -/
def Runs (first later : Reader) : Prop := ∃ raised, Course first raised later

namespace Runs

variable {first second third reader : Reader}

theorem andThen (earlier : Runs first second) (behind : Runs second third) : Runs first third := by
  obtain ⟨_, earlier⟩ := earlier
  obtain ⟨_, behind⟩ := behind
  exact ⟨_, earlier.append behind⟩

theorem done : Runs first first := ⟨_, .done⟩

theorem look (earlier : Runs first reader) : Runs first reader.spend :=
  earlier.andThen ⟨_, .look⟩

theorem advance (earlier : Runs first reader) (next : reader.rest ≠ []) :
    Runs first reader.step :=
  earlier.andThen ⟨_, .advance next⟩

theorem exceed (earlier : Runs first reader) (limited : reader.limits.depth ≠ none) :
    Runs first (reader.exceed .depth) :=
  earlier.andThen ⟨_, .exceed limited⟩

theorem placeBlanks (earlier : Runs first reader) : Runs first reader.placeBlanks :=
  earlier.andThen ⟨_, .placeBlanks⟩

end Runs

/-! ## What is in view -/

variable {reader : Reader}

/-- A token in view is there to be consumed. -/
theorem rest_ne_nil_of_filter {accepted : Leaf → Bool} {leaf : Leaf}
    (next : reader.rest.head?.filter accepted = some leaf) : reader.rest ≠ [] := by
  intro empty
  simp [empty] at next

theorem rest_ne_nil_of_head {leaf : Leaf} (next : reader.rest.head? = some leaf) :
    reader.rest ≠ [] := by
  intro empty
  simp [empty] at next

theorem rest_ne_nil_of_second {kind : TokenKind} {leaf : Leaf}
    (second : reader.rest[1]?.filter (·.kind = kind) = some leaf) : reader.rest.tail ≠ [] := by
  intro empty
  cases rest : reader.rest with
  | nil => simp [rest] at second
  | cons head tail =>
      simp only [rest, List.tail_cons] at empty
      simp [rest, empty] at second

/-- Only a reader with a depth limit refuses to open a group. -/
theorem limited_of_refused {depth : Nat}
    (refused : (mayOpen depth).run reader = (false, reader.exceed .depth)) :
    reader.limits.depth ≠ none := by
  intro unlimited
  simp only [mayOpen, StateT.run, unlimited] at refused
  cases refused

/-! ## The parts of the grammar -/

theorem runs_eat (kind : TokenKind) (reader : Reader) :
    Runs reader ((eat kind).run reader).2 := by
  rw [run_eat]
  split
  · exact .look .done
  · rename_i next
    exact .advance (.look .done) (rest_ne_nil_of_filter next)

theorem runs_reportHere {kind : DiagnosticKind} (detail : Option String)
    (error : kind.severity = .error) (noGroup : kind.opener? = none) (reader : Reader) :
    Runs reader ((reportHere kind detail).run reader).2 := by
  rw [run_reportHere, Reader.nextSpan_start]
  exact (Runs.look .done).andThen ⟨_, .report kind detail error noGroup⟩

/-- A group ends with its closing token, or with an error that says where it was opened.  So the
course of the whole group, and not only of its end, is what follows. -/
theorem runs_close {opener : Leaf} {kind : DiagnosticKind} {later : Reader} (closer : TokenKind)
    (detail : String) (opens : kind.opener? = some opener.kind)
    (next : reader.rest.head? = some opener) (inside : Runs reader.step later) :
    Runs reader ((close closer kind detail opener.token).run later).2 := by
  have toCloser := inside.andThen (runs_eat closer later)
  simp only [close, run_bind]
  split
  · exact (Runs.advance .done (rest_ne_nil_of_head next)).andThen toCloser
  · obtain ⟨_, course⟩ := toCloser.look
    have unclosed := Course.unclosed kind detail opens next course
    rw [← Reader.nextSpan_start] at unclosed
    exact ⟨_, unclosed⟩

theorem runs_nameTest (first : Leaf) (reader : Reader) (next : reader.rest ≠ []) :
    Runs reader ((nameTest first).run reader).2 := by
  simp only [nameTest, run_bind, run_advance]
  have toColon := (Runs.advance .done next).andThen (runs_eat .colon reader.step)
  split
  · exact toColon
  · simp only [run_bind, run_lookFor]
    split
    · rename_i second
      exact .advance (.look toColon) (rest_ne_nil_of_filter second)
    · exact (Runs.look toColon).andThen (runs_reportHere _ rfl rfl _)

theorem runs_kindTestWith {arguments : Reading (List Argument)} (depth : Nat)
    (keyword : Leaf) {opener : Leaf} {reader : Reader} (next : reader.rest ≠ [])
    (second : reader.rest.tail.head? = some opener) (opens : opener.kind = .parenOpen)
    (inner : ∀ reader, Runs reader (arguments.run reader).2) :
    Runs reader ((kindTestWith arguments depth keyword opener).run reader).2 := by
  simp only [kindTestWith, run_bind]
  rcases run_mayOpen depth reader with opened | refused
  · simp only [opened, if_true, run_bind, run_advance, run_look, run_pure]
    have toOpener : Runs reader reader.step.spend := .look (.advance .done next)
    exact toOpener.andThen (runs_close .parenClose _ (by rw [opens]; rfl) (by simpa using second)
      (inner _))
  · rw [refused]
    exact .exceed .done (limited_of_refused refused)

theorem runs_stray (leaf : Leaf) (reader : Reader) (next : reader.rest ≠ []) :
    Runs reader ((stray leaf).run reader).2 := by
  simp only [stray, run_bind, run_look, run_advance, run_pure]
  exact .advance ((Runs.look .done).andThen (runs_reportHere _ rfl rfl _))
    (by simpa [run_reportHere] using next)

theorem runs_arguments (fuel depth : Nat) (reader : Reader) :
    Runs reader ((arguments fuel depth).run reader).2 := by
  induction fuel generalizing depth reader with
  | zero => exact .done
  | succ fuel ih =>
      simp only [arguments, run_ifEnded]
      split
      · exact .done
      · simp only [run_bind, run_lookFor]
        split
        · exact .look .done
        · rename_i leaf found
          have next := rest_ne_nil_of_filter found
          have inView : Runs reader reader.spend.spend := .look (.look .done)
          simp only [run_bind, run_look]
          split
          · simp only [run_bind, run_secondIf]
            split
            · rename_i opener after
              simp only [run_bind, run_pure]
              obtain ⟨second, opens⟩ := head_of_second after
              have toTest := inView.andThen (runs_kindTestWith depth leaf
                (by simpa using next) second opens (ih (depth + 1)))
              exact toTest.andThen (ih depth _)
            · simp only [run_bind, run_pure]
              exact (inView.andThen (runs_nameTest leaf _ (by simpa using next))).andThen
                (ih depth _)
          · simp only [run_bind, run_pure]
            exact (inView.andThen (runs_nameTest leaf _ (by simpa using next))).andThen
              (ih depth _)
          all_goals simp only [run_bind, run_pure]
          · exact (Runs.advance inView (by simpa using next)).andThen (ih depth _)
          · exact (Runs.advance inView (by simpa using next)).andThen (ih depth _)
          · exact (Runs.advance inView (by simpa using next)).andThen (ih depth _)
          · exact (inView.andThen (runs_stray leaf _ (by simpa using next))).andThen
              (ih depth _)

theorem runs_predicateWith {items : Reading (List PredicateItem)} (depth : Nat)
    {opener : Leaf} {reader : Reader} (next : reader.rest.head? = some opener)
    (opens : opener.kind = .bracketOpen)
    (inner : ∀ reader, Runs reader (items.run reader).2) :
    Runs reader ((predicateWith items depth opener).run reader).2 := by
  simp only [predicateWith, run_bind]
  rcases run_mayOpen depth reader with opened | refused
  · simp only [opened, if_true, run_bind, run_advance, run_look, run_pure]
    have inView : Runs reader reader.spend := .look .done
    exact inView.andThen (runs_close .bracketClose _ (by rw [opens]; rfl) (by simpa using next)
      (inner _))
  · rw [refused]
    exact .exceed .done (limited_of_refused refused)

theorem runs_predicateItems (fuel depth : Nat) (reader : Reader) :
    Runs reader ((predicateItems fuel depth).run reader).2 := by
  induction fuel generalizing depth reader with
  | zero => exact .done
  | succ fuel ih =>
      simp only [predicateItems, run_ifEnded]
      split
      · exact .done
      · simp only [run_bind, run_look]
        split
        · exact .look .done
        · rename_i leaf next
          have inView : Runs reader reader.spend := .look .done
          split
          · exact inView
          · rename_i opens
            simp only [run_bind, run_pure]
            have toPredicate := inView.andThen
              (runs_predicateWith depth (by simpa using next) opens (ih (depth + 1)))
            exact toPredicate.andThen (ih depth _)
          · simp only [run_bind, run_advance, run_pure]
            have onward := inView.advance (by simpa using rest_ne_nil_of_head next)
            exact onward.andThen (ih depth _)

theorem runs_predicates (fuel : Nat) (reader : Reader) :
    Runs reader ((predicates fuel).run reader).2 := by
  induction fuel generalizing reader with
  | zero => exact .done
  | succ fuel ih =>
      simp only [predicates, run_ifHalted]
      split
      · exact .done
      · simp only [run_bind, run_lookFor]
        split
        · exact .look .done
        · rename_i opener found
          obtain ⟨next, opens⟩ := head_of_filter (fun kind => decide (kind = .bracketOpen)) found
          simp only [run_bind, run_pure]
          have inView : Runs reader reader.spend := .look .done
          have toPredicate := inView.andThen (runs_predicateWith 0 (by simpa using next)
            (by simpa using opens) (runs_predicateItems fuel 1))
          exact toPredicate.andThen (ih _)

theorem runs_nodeTest (fuel : Nat) (context : String) (reader : Reader) :
    Runs reader ((nodeTest fuel context).run reader).2 := by
  simp only [nodeTest, run_bind, run_look]
  split
  · simp only [run_bind, run_pure]
    exact (Runs.look .done).andThen (runs_reportHere _ rfl rfl _)
  · rename_i leaf found
    have next : reader.spend.rest ≠ [] := rest_ne_nil_of_head found
    split
    · simp only [run_bind, run_secondIf]
      split
      · rename_i opener after
        obtain ⟨second, opens⟩ := head_of_second after
        simp only [run_bind, run_pure]
        exact (Runs.look .done).andThen (runs_kindTestWith 0 leaf next second opens
          (runs_arguments fuel 1))
      · simp only [run_bind, run_pure]
        exact (Runs.look .done).andThen (runs_nameTest leaf _ next)
    · simp only [run_bind, run_pure]
      exact (Runs.look .done).andThen (runs_nameTest leaf _ next)
    · simp only [run_bind, run_pure]
      exact (Runs.look .done).andThen (runs_reportHere _ rfl rfl _)

theorem runs_stepBody (fuel : Nat) (reader : Reader) :
    Runs reader ((stepBody fuel).run reader).2 := by
  simp only [stepBody, run_bind, run_look]
  split
  · simp only [run_bind, run_pure]
    exact (Runs.look .done).andThen (runs_nodeTest _ _ _)
  · rename_i leaf found
    have next : reader.spend.rest ≠ [] := rest_ne_nil_of_head found
    have onward : Runs reader reader.spend.step := .advance (.look .done) next
    split
    · exact onward
    · exact onward
    · simp only [run_bind, run_advance, run_pure]
      exact onward.andThen (runs_nodeTest _ _ _)
    · simp only [run_bind, run_secondIf]
      split
      · rename_i colons after
        simp only [run_bind, run_advance, run_pure]
        exact (Runs.advance onward (by simpa using rest_ne_nil_of_second after)).andThen
          (runs_nodeTest _ _ _)
      · simp only [run_bind, run_pure]
        exact (Runs.look .done).andThen (runs_nodeTest _ _ _)
    · simp only [run_bind, run_pure]
      exact (Runs.look .done).andThen (runs_nodeTest _ _ _)

theorem runs_step (fuel : Nat) (reader : Reader) :
    Runs reader ((step fuel).run reader).2 := by
  simp only [step, run_bind, run_takeBlanks, run_offset, run_pure]
  exact ((Runs.placeBlanks .done).andThen (runs_stepBody fuel _)).andThen
    (runs_predicates fuel _)

theorem runs_stepIfAny (fuel : Nat) (reader : Reader) :
    Runs reader ((stepIfAny fuel).run reader).2 := by
  simp only [stepIfAny, run_bind, run_lookFor]
  split
  · simp only [run_bind, run_pure]
    exact (Runs.look .done).andThen (runs_step fuel _)
  · rw [run_ifEnded]
    split <;> exact (Runs.look .done).andThen (runs_reportHere _ rfl rfl _)

theorem runs_laterParts (fuel : Nat) (reader : Reader) :
    Runs reader ((laterParts fuel).run reader).2 := by
  induction fuel generalizing reader with
  | zero => exact .done
  | succ fuel ih =>
      simp only [laterParts, run_ifHalted]
      split
      · exact .done
      · simp only [run_bind, run_lookFor]
        split
        · exact .look .done
        · rename_i separator found
          simp only [run_bind, run_advance, run_pure]
          have onward : Runs reader reader.spend.step :=
            .advance (.look .done) (rest_ne_nil_of_filter found)
          exact (onward.andThen (runs_stepIfAny fuel _)).andThen (ih _)

theorem runs_partsFromStep (fuel : Nat) (reader : Reader) :
    Runs reader ((partsFromStep fuel).run reader).2 := by
  simp only [partsFromStep, run_bind, run_pure]
  exact (runs_stepIfAny fuel _).andThen (runs_laterParts fuel _)

theorem runs_pathParts (fuel : Nat) (reader : Reader) :
    Runs reader ((pathParts fuel).run reader).2 := by
  simp only [pathParts, run_bind, run_lookFor]
  split
  · exact (Runs.look .done).andThen (runs_partsFromStep fuel _)
  · rename_i separator found
    have onward : Runs reader reader.spend.spend.step :=
      .advance (.look (.look .done)) (rest_ne_nil_of_filter found)
    simp only [run_bind, run_look, run_advance, run_ite]
    split
    · exact onward
    · simp only [run_pure]
      exact onward.andThen (runs_partsFromStep fuel _)

theorem runs_pathIfAny (fuel : Nat) (reader : Reader) :
    Runs reader ((pathIfAny fuel).run reader).2 := by
  simp only [pathIfAny, run_ifEnded]
  split
  · simp only [run_bind, run_pure]
    exact runs_reportHere _ rfl rfl _
  · simp only [path, run_bind, run_takeBlanks, run_offset, run_pure]
    exact (Runs.placeBlanks .done).andThen (runs_pathParts fuel _)

/-- Consuming as many tokens as there are consumes none that is not there. -/
theorem runs_forM_advance (leaves : List Leaf) (reader : Reader)
    (enough : leaves.length ≤ reader.rest.length) :
    Runs reader ((leaves.forM fun _ => advance).run reader).2 := by
  induction leaves generalizing reader with
  | nil => exact .done
  | cons leaf leaves ih =>
      simp only [List.length_cons] at enough
      have next : reader.rest ≠ [] := List.ne_nil_of_length_pos (by omega)
      have later := ih reader.step (by simp only [Reader.rest_step, List.length_tail]; omega)
      exact (Runs.advance .done next).andThen later

theorem runs_surplus (reader : Reader) : Runs reader (surplus.run reader).2 := by
  simp only [surplus, run_bind, run_pure, run_takeBlanks, run_offset, run_get]
  exact (Runs.placeBlanks .done).andThen (runs_forM_advance _ _ (Nat.le_refl _))

theorem runs_surplusIfAny (reader : Reader) :
    Runs reader (surplusIfAny.run reader).2 := by
  rw [surplusIfAny, run_ifEnded]
  split
  · exact .done
  · simp only [run_bind, run_look, run_pure]
    exact ((Runs.look .done).andThen (runs_reportHere _ rfl rfl _)).andThen (runs_surplus _)

/-- Reading a whole text is a sequence of moves. -/
theorem runs_root (fuel : Nat) (reader : Reader) :
    Runs reader ((root fuel).run reader).2 := by
  simp only [root, run_bind, run_get, run_pure]
  exact (runs_pathIfAny fuel _).andThen (runs_surplusIfAny _)

end PathCover.Tree
