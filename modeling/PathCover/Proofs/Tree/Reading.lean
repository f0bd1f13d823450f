import PathCover.Proofs.Token.Significant
import PathCover.Tree.Grammar

/-!
# Running a reader

What each basic operation does to a reader, as one equation for the operation and one for each field
of the state that it leaves alone or changes.  Later proofs run a part of the grammar by these
equations and never open an operation.
-/

namespace PathCover.Tree

variable {α β : Type}

/-! ## Sequencing -/

theorem run_pure (value : α) (reader : Reader) :
    (pure value : Reading α).run reader = (value, reader) := rfl

theorem run_bind (first : Reading α) (next : α → Reading β) (reader : Reader) :
    (first >>= next).run reader =
      (next (first.run reader).1).run (first.run reader).2 := rfl

/-- What two readings in sequence end with comes from what the first ends with. -/
theorem ran_bind {first : Reading α} {next : α → Reading β} {reader later : Reader} {value : β}
    (ran : (first >>= next).run reader = (value, later)) :
    ∃ (middle : α) (between : Reader), first.run reader = (middle, between) ∧
      (next middle).run between = (value, later) :=
  ⟨_, _, rfl, ran⟩

theorem ran_pure {value other : α} {reader later : Reader}
    (ran : (pure value : Reading α).run reader = (other, later)) :
    value = other ∧ reader = later :=
  Prod.mk.inj ran

theorem run_ite (condition : Prop) [Decidable condition] (first second : Reading α)
    (reader : Reader) :
    (if condition then first else second).run reader =
      if condition then first.run reader else second.run reader := by
  split <;> rfl

/-! ## States and operations -/

namespace Reader

/-- A reader after a diagnostic about a place was reported, or left out as a consequence. -/
def note (place : Nat) (diagnostic : Diagnostic) (reader : Reader) : Reader :=
  ((reportAt place diagnostic).run reader).2

/-- The blanks in front of the next token that are not yet placed. -/
def frontBlanks (reader : Reader) : List Token := (takeBlanks.run reader).1

/-- A reader after the blanks in front of its next token were taken. -/
def placeBlanks (reader : Reader) : Reader := (takeBlanks.run reader).2

section Fields

variable (reader : Reader)

@[simp] theorem rest_spend : reader.spend.rest = reader.rest := rfl
@[simp] theorem limits_spend : reader.spend.limits = reader.limits := rfl
@[simp] theorem exceeded_spend : reader.spend.exceeded = reader.exceeded := rfl
@[simp] theorem reported_spend : reader.spend.reported = reader.reported := rfl
@[simp] theorem report_spend : reader.spend.report = reader.report := rfl
@[simp] theorem looks_spend : reader.spend.looks = reader.looks + 1 := rfl

@[simp] theorem rest_step : reader.step.rest = reader.rest.tail := by
  simp only [step]

@[simp] theorem looks_step : reader.step.looks = 0 := rfl

@[simp] theorem consumed_step : reader.step.consumed = reader.consumed + 1 := by
  simp only [step]

@[simp] theorem limits_step : reader.step.limits = reader.limits := by
  simp only [step]
  split <;> rfl

@[simp] theorem reported_step : reader.step.reported = reader.reported := by
  simp only [step]
  split <;> rfl

@[simp] theorem report_step : reader.step.report = reader.report := by
  simp only [step]
  split <;> rfl

@[simp] theorem stuck_step : reader.step.stuck = reader.stuck := by
  simp only [step]
  split <;> rfl

theorem exceeded_step (within : reader.step.exceeded = none) : reader.exceeded = none := by
  simp only [step] at within
  split at within
  · simp [exceed] at within
  · exact within

theorem exceeded_exceed (limit : Limit) : (reader.exceed limit).exceeded ≠ none := by
  cases earlier : reader.exceeded <;> simp [exceed, earlier]

@[simp] theorem rest_exceed (limit : Limit) : (reader.exceed limit).rest = reader.rest := rfl
@[simp] theorem looks_exceed (limit : Limit) :
    (reader.exceed limit).looks = reader.looks := rfl
@[simp] theorem stuck_exceed (limit : Limit) :
    (reader.exceed limit).stuck = reader.stuck := rfl
@[simp] theorem limits_exceed (limit : Limit) :
    (reader.exceed limit).limits = reader.limits := rfl

@[simp] theorem rest_note (place : Nat) (diagnostic : Diagnostic) :
    (reader.note place diagnostic).rest = reader.rest := rfl
@[simp] theorem looks_note (place : Nat) (diagnostic : Diagnostic) :
    (reader.note place diagnostic).looks = reader.looks := rfl
@[simp] theorem stuck_note (place : Nat) (diagnostic : Diagnostic) :
    (reader.note place diagnostic).stuck = reader.stuck := rfl
@[simp] theorem limits_note (place : Nat) (diagnostic : Diagnostic) :
    (reader.note place diagnostic).limits = reader.limits := rfl
@[simp] theorem exceeded_note (place : Nat) (diagnostic : Diagnostic) :
    (reader.note place diagnostic).exceeded = reader.exceeded := rfl
@[simp] theorem reported_note (place : Nat) (diagnostic : Diagnostic) :
    (reader.note place diagnostic).reported = some place := rfl

theorem report_note (place : Nat) (diagnostic : Diagnostic) :
    (reader.note place diagnostic).report =
      if reader.reported = some place then reader.report else reader.report ++ [diagnostic] := rfl

@[simp] theorem looks_placeBlanks : reader.placeBlanks.looks = reader.looks := by
  cases rest : reader.rest <;> simp [placeBlanks, takeBlanks, rest, StateT.run]

@[simp] theorem stuck_placeBlanks : reader.placeBlanks.stuck = reader.stuck := by
  cases rest : reader.rest <;> simp [placeBlanks, takeBlanks, rest, StateT.run]

@[simp] theorem limits_placeBlanks : reader.placeBlanks.limits = reader.limits := by
  cases rest : reader.rest <;> simp [placeBlanks, takeBlanks, rest, StateT.run]

@[simp] theorem exceeded_placeBlanks : reader.placeBlanks.exceeded = reader.exceeded := by
  cases rest : reader.rest <;> simp [placeBlanks, takeBlanks, rest, StateT.run]

@[simp] theorem reported_placeBlanks : reader.placeBlanks.reported = reader.reported := by
  cases rest : reader.rest <;> simp [placeBlanks, takeBlanks, rest, StateT.run]

@[simp] theorem report_placeBlanks : reader.placeBlanks.report = reader.report := by
  cases rest : reader.rest <;> simp [placeBlanks, takeBlanks, rest, StateT.run]

@[simp] theorem consumed_placeBlanks : reader.placeBlanks.consumed = reader.consumed := by
  cases rest : reader.rest <;> simp [placeBlanks, takeBlanks, rest, StateT.run]

@[simp] theorem rest_placeBlanks :
    reader.placeBlanks.rest.map Leaf.token = reader.rest.map Leaf.token := by
  cases rest : reader.rest <;> simp [placeBlanks, takeBlanks, rest, StateT.run, Leaf.bare]

@[simp] theorem length_rest_placeBlanks :
    reader.placeBlanks.rest.length = reader.rest.length := by
  cases rest : reader.rest <;> simp [placeBlanks, takeBlanks, rest, StateT.run]

end Fields

end Reader

theorem run_look (reader : Reader) : look.run reader = (reader.rest.head?, reader.spend) := rfl

theorem run_lookFor (accepted : TokenKind → Bool) (reader : Reader) :
    (lookFor accepted).run reader =
      (reader.rest.head?.filter (accepted ·.kind), reader.spend) := rfl

theorem run_secondIf (kind : TokenKind) (reader : Reader) :
    (secondIf kind).run reader = (reader.rest[1]?.filter (·.kind = kind), reader) := rfl

theorem run_ended (reader : Reader) : ended.run reader = (reader.hasEnded, reader) := rfl

theorem run_halted (reader : Reader) :
    halted.run reader = (reader.exceeded.isSome, reader) := rfl

/-- A reading that goes on only if there is something left to read. -/
theorem run_ifEnded (first second : Reading α) (reader : Reader) :
    (ended >>= fun atEnd => if atEnd = true then first else second).run reader =
      if reader.hasEnded = true then first.run reader else second.run reader := by
  rw [run_bind, run_ended]
  exact run_ite ..

/-- A reading that goes on only if no limit was hit. -/
theorem run_ifHalted (first second : Reading α) (reader : Reader) :
    (halted >>= fun isHalted => if isHalted = true then first else second).run reader =
      if reader.exceeded.isSome = true then first.run reader else second.run reader := by
  rw [run_bind, run_halted]
  exact run_ite ..

theorem run_advance (reader : Reader) : advance.run reader = ((), reader.step) := rfl

theorem run_offset (reader : Reader) : offset.run reader = (reader.offset, reader) := rfl

theorem run_takeBlanks (reader : Reader) :
    takeBlanks.run reader = (reader.frontBlanks, reader.placeBlanks) := rfl

theorem run_get (reader : Reader) : (get : Reading Reader).run reader = (reader, reader) := rfl

theorem run_reportHere (kind : DiagnosticKind) (detail : Option String) (reader : Reader) :
    (reportHere kind detail).run reader =
      ((), reader.spend.note reader.nextSpan.start (.plain kind reader.nextSpan detail)) := rfl

theorem run_eat (kind : TokenKind) (reader : Reader) :
    (eat kind).run reader =
      match reader.rest.head?.filter (·.kind = kind) with
      | none => (none, reader.spend)
      | some leaf => (some leaf, reader.spend.step) := by
  simp only [eat, run_bind, run_lookFor]
  cases reader.rest.head?.filter (·.kind = kind) <;> rfl

theorem run_mayOpen (depth : Nat) (reader : Reader) :
    (mayOpen depth).run reader = (true, reader) ∨
      (mayOpen depth).run reader = (false, reader.exceed .depth) := by
  simp only [mayOpen, StateT.run]
  split
  · exact .inl rfl
  · split
    · exact .inr rfl
    · exact .inl rfl

/-! ## A basic operation first -/

section Then

variable (reader : Reader)

theorem look_then (next : Option Leaf → Reading α) :
    (look >>= next).run reader = (next reader.rest.head?).run reader.spend := rfl

theorem lookFor_then (accepted : TokenKind → Bool) (next : Option Leaf → Reading α) :
    (lookFor accepted >>= next).run reader =
      (next (reader.rest.head?.filter (accepted ·.kind))).run reader.spend := rfl

theorem secondIf_then (kind : TokenKind) (next : Option Leaf → Reading α) :
    (secondIf kind >>= next).run reader =
      (next (reader.rest[1]?.filter (·.kind = kind))).run reader := rfl

theorem ended_then (next : Bool → Reading α) :
    (ended >>= next).run reader = (next reader.hasEnded).run reader := rfl

theorem advance_then (next : Unit → Reading α) :
    (advance >>= next).run reader = (next ()).run reader.step := rfl

theorem takeBlanks_then (next : List Token → Reading α) :
    (takeBlanks >>= next).run reader = (next reader.frontBlanks).run reader.placeBlanks := rfl

theorem offset_then (next : Nat → Reading α) :
    (offset >>= next).run reader = (next reader.offset).run reader := rfl

theorem get_then (next : Reader → Reading α) :
    ((get : Reading Reader) >>= next).run reader = (next reader).run reader := rfl

theorem reportHere_then (kind : DiagnosticKind) (detail : Option String)
    (next : Unit → Reading α) :
    (reportHere kind detail >>= next).run reader =
      (next ()).run
        (reader.spend.note reader.nextSpan.start (.plain kind reader.nextSpan detail)) := rfl

end Then

/-! ## What is left -/

/-- The token of a leaf without its place. -/
def Leaf.lexeme (leaf : Leaf) : Token.Lexeme := leaf.token.lexeme

@[simp] theorem Leaf.lexeme_bare (leaf : Leaf) : leaf.bare.lexeme = leaf.lexeme := rfl

@[simp] theorem Leaf.kind_lexeme (leaf : Leaf) : leaf.lexeme.kind = leaf.kind := rfl

/-- What is left to read, without blanks and places. -/
def Reader.lexemes (reader : Reader) : List Token.Lexeme := reader.rest.map Leaf.lexeme

namespace Reader

variable (reader : Reader)

@[simp] theorem lexemes_spend : reader.spend.lexemes = reader.lexemes := rfl

@[simp] theorem lexemes_note (place : Nat) (diagnostic : Diagnostic) :
    (reader.note place diagnostic).lexemes = reader.lexemes := rfl

@[simp] theorem lexemes_placeBlanks : reader.placeBlanks.lexemes = reader.lexemes := by
  have same := congrArg (List.map Token.lexeme) reader.rest_placeBlanks
  rw [List.map_map, List.map_map] at same
  exact same

@[simp] theorem lexemes_step : reader.step.lexemes = reader.lexemes.tail := by
  simp [lexemes, List.map_tail]

theorem lexemes_of_head {leaf : Leaf} (next : reader.rest.head? = some leaf) :
    leaf.lexeme :: reader.lexemes.tail = reader.lexemes := by
  obtain ⟨tail, rest⟩ := List.head?_eq_some_iff.mp next
  simp [lexemes, rest]

end Reader

/-! ## What is in view -/

section View

variable {reader : Reader}

theorem head_of_filter (accepted : TokenKind → Bool) {leaf : Leaf}
    (found : reader.rest.head?.filter (accepted ·.kind) = some leaf) :
    reader.rest.head? = some leaf ∧ accepted leaf.kind = true := by
  simpa [Option.filter_eq_some_iff] using found

theorem head_of_second {kind : TokenKind} {leaf : Leaf}
    (found : reader.rest[1]?.filter (·.kind = kind) = some leaf) :
    reader.rest.tail.head? = some leaf ∧ leaf.kind = kind := by
  rw [Option.filter_eq_some_iff] at found
  exact ⟨by rw [List.head?_tail]; exact found.1, by simpa using found.2⟩

theorem eat_cases (kind : TokenKind) (reader : Reader) :
    (∃ leaf, reader.rest.head? = some leaf ∧ leaf.kind = kind ∧
        (eat kind).run reader = (some leaf, reader.spend.step)) ∨
      (eat kind).run reader = (none, reader.spend) := by
  rw [run_eat]
  cases found : reader.rest.head?.filter (·.kind = kind) with
  | none => exact .inr rfl
  | some leaf =>
      obtain ⟨next, same⟩ := head_of_filter (fun other => decide (other = kind)) found
      exact .inl ⟨leaf, next, by simpa using same, rfl⟩

theorem startsNameTest_cases {kind : TokenKind} (starts : kind.startsNameTest = true) :
    kind = .name ∨ kind = .star := by
  cases kind <;> first | exact .inl rfl | exact .inr rfl | cases starts

end View

end PathCover.Tree
