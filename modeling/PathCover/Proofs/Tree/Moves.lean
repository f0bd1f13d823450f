import PathCover.Proofs.Tree.Course

/-!
# What reading can do

A course of a reading is a sequence of moves.  Where it does not matter what is reported, `Moves`
says all that there is to know about the readers that a reader can become; whatever each move keeps,
every part of the grammar keeps.
-/

namespace PathCover.Tree

/-- The readers that a reader can become by looking, consuming a token that is there, hitting the
depth limit that it has, placing blanks and reporting errors. -/
inductive Moves (first : Reader) : Reader → Prop where
  | done : Moves first first
  | look {reader : Reader} (earlier : Moves first reader) : Moves first reader.spend
  | advance {reader : Reader} (earlier : Moves first reader) (next : reader.rest ≠ []) :
      Moves first reader.step
  | exceed {reader : Reader} (earlier : Moves first reader)
      (limited : reader.limits.depth ≠ none) : Moves first (reader.exceed .depth)
  | placeBlanks {reader : Reader} (earlier : Moves first reader) :
      Moves first reader.placeBlanks
  | note {reader : Reader} (earlier : Moves first reader) (place : Nat)
      (diagnostic : Diagnostic) (error : diagnostic.isError = true) :
      Moves first (reader.note place diagnostic)

variable {reader : Reader}

theorem Moves.andThen {first second third : Reader} (earlier : Moves first second)
    (later : Moves second third) : Moves first third := by
  induction later with
  | done => exact earlier
  | look _ ih => exact .look ih
  | advance _ next ih => exact .advance ih next
  | exceed _ limited ih => exact .exceed ih limited
  | placeBlanks _ ih => exact .placeBlanks ih
  | note _ place diagnostic error ih => exact .note ih place diagnostic error

/-- The reader that a reading ends with is the one that its moves lead to. -/
theorem Moves.ofRan {α : Type} {reading : Reading α} {value : α} {later : Reader}
    (moves : Moves reader (reading.run reader).2)
    (ran : reading.run reader = (value, later)) : Moves reader later := by
  rwa [ran] at moves

/-- Every move of a course is one. -/
theorem Course.moves {first later : Reader} {raised : List Raised}
    (course : Course first raised later) : Moves first later := by
  induction course with
  | done => exact .done
  | look => exact .look .done
  | advance next => exact .advance .done next
  | exceed limited => exact .exceed .done limited
  | placeBlanks => exact .placeBlanks .done
  | report kind detail error =>
      exact .note .done _ _
        (by simp [Diagnostic.isError, Diagnostic.severity, Diagnostic.plain, error])
  | unclosed kind detail opens next inside ih =>
      refine .note ((Moves.advance .done (rest_ne_nil_of_head next)).andThen ih) _ _ ?_
      cases kind <;> first | rfl | cases opens
  | append _ _ earlier behind => exact earlier.andThen behind

theorem Runs.moves {first later : Reader} (runs : Runs first later) : Moves first later := by
  obtain ⟨_, course⟩ := runs
  exact course.moves

theorem moves_eat (kind : TokenKind) (reader : Reader) :
    Moves reader ((eat kind).run reader).2 :=
  (runs_eat kind reader).moves

theorem moves_reportHere {kind : DiagnosticKind} (detail : Option String)
    (error : kind.severity = .error) (reader : Reader) :
    Moves reader ((reportHere kind detail).run reader).2 := by
  rw [run_reportHere]
  exact .note (.look .done) _ _
    (by simp [Diagnostic.isError, Diagnostic.severity, Diagnostic.plain, error])

theorem moves_close (closer : TokenKind) (kind : DiagnosticKind) (detail : String)
    (opener : Token) (error : kind.severity = .error) (reader : Reader) :
    Moves reader ((close closer kind detail opener).run reader).2 := by
  simp only [close, run_bind]
  have toCloser := moves_eat closer reader
  split
  · exact toCloser
  · exact .note (.look toCloser) _ _ (by simp [Diagnostic.isError, Diagnostic.severity, error])

theorem moves_nameTest (first : Leaf) (reader : Reader) (next : reader.rest ≠ []) :
    Moves reader ((nameTest first).run reader).2 :=
  (runs_nameTest first reader next).moves

/-- A kind test moves as what is between its parentheses does, whatever that is. -/
theorem moves_kindTestWith {arguments : Reading (List Argument)} (depth : Nat)
    (keyword opener : Leaf) (reader : Reader) (next : reader.rest ≠ [])
    (second : reader.rest.tail ≠ [])
    (inner : ∀ reader, Moves reader (arguments.run reader).2) :
    Moves reader ((kindTestWith arguments depth keyword opener).run reader).2 := by
  simp only [kindTestWith, run_bind]
  rcases run_mayOpen depth reader with opened | refused
  · simp only [opened, if_true, run_bind, run_advance, run_look, run_pure]
    have toArguments : Moves reader reader.step.spend.step :=
      .advance (.look (.advance .done next)) (by simpa using second)
    exact (toArguments.andThen (inner _)).andThen (moves_close _ _ _ _ rfl _)
  · rw [refused]
    exact .exceed .done (limited_of_refused refused)

theorem moves_stray (leaf : Leaf) (reader : Reader) (next : reader.rest ≠ []) :
    Moves reader ((stray leaf).run reader).2 :=
  (runs_stray leaf reader next).moves

theorem moves_arguments (fuel depth : Nat) (reader : Reader) :
    Moves reader ((arguments fuel depth).run reader).2 :=
  (runs_arguments fuel depth reader).moves

/-- A predicate moves as what is between its brackets does, whatever that is. -/
theorem moves_predicateWith {items : Reading (List PredicateItem)} (depth : Nat)
    (opener : Leaf) (reader : Reader) (next : reader.rest ≠ [])
    (inner : ∀ reader, Moves reader (items.run reader).2) :
    Moves reader ((predicateWith items depth opener).run reader).2 := by
  simp only [predicateWith, run_bind]
  rcases run_mayOpen depth reader with opened | refused
  · simp only [opened, if_true, run_bind, run_advance, run_look, run_pure]
    have toItems : Moves reader reader.spend.step := .advance (.look .done) (by simpa using next)
    exact (toItems.andThen (inner _)).andThen (moves_close _ _ _ _ rfl _)
  · rw [refused]
    exact .exceed .done (limited_of_refused refused)

theorem moves_predicateItems (fuel depth : Nat) (reader : Reader) :
    Moves reader ((predicateItems fuel depth).run reader).2 :=
  (runs_predicateItems fuel depth reader).moves

theorem moves_predicates (fuel : Nat) (reader : Reader) :
    Moves reader ((predicates fuel).run reader).2 :=
  (runs_predicates fuel reader).moves

theorem moves_stepBody (fuel : Nat) (reader : Reader) :
    Moves reader ((stepBody fuel).run reader).2 :=
  (runs_stepBody fuel reader).moves

theorem moves_stepIfAny (fuel : Nat) (reader : Reader) :
    Moves reader ((stepIfAny fuel).run reader).2 :=
  (runs_stepIfAny fuel reader).moves

theorem moves_laterParts (fuel : Nat) (reader : Reader) :
    Moves reader ((laterParts fuel).run reader).2 :=
  (runs_laterParts fuel reader).moves

theorem moves_pathIfAny (fuel : Nat) (reader : Reader) :
    Moves reader ((pathIfAny fuel).run reader).2 :=
  (runs_pathIfAny fuel reader).moves

theorem moves_surplus (reader : Reader) : Moves reader (surplus.run reader).2 :=
  (runs_surplus reader).moves

theorem moves_surplusIfAny (reader : Reader) :
    Moves reader (surplusIfAny.run reader).2 :=
  (runs_surplusIfAny reader).moves

/-- Reading a whole text is a sequence of moves. -/
theorem moves_root (fuel : Nat) (reader : Reader) :
    Moves reader ((root fuel).run reader).2 :=
  (runs_root fuel reader).moves

end PathCover.Tree
