/-!
# Log events

What an operation has to say while it works is part of its result: a value together with the events
that arose, oldest first.  Sequencing two logged operations appends their events.
-/

namespace PathCover

/-- How grave an event is, gravest first. -/
inductive Level where
  | error
  | warn
  | info
  | debug
  | trace
  deriving DecidableEq, Inhabited

namespace Level

def render : Level → String
  | .error => "ERROR"
  | .warn => "WARN"
  | .info => "INFO"
  | .debug => "DEBUG"
  | .trace => "TRACE"

/-- Position in the order of gravity. -/
def rank : Level → Nat
  | .error => 0
  | .warn => 1
  | .info => 2
  | .debug => 3
  | .trace => 4

/-- The level that a setting names. -/
def ofName? : String → Option Level
  | "error" => some .error
  | "warn" => some .warn
  | "info" => some .info
  | "debug" => some .debug
  | "trace" => some .trace
  | _ => none

/-- Whether a reader who asks for `threshold` sees an event of this level. -/
def shownAt (level threshold : Level) : Bool := level.rank ≤ threshold.rank

end Level

/-- One log event: a message and named values in a fixed order. -/
structure Event where
  level : Level
  message : String
  fields : List (String × String)
  deriving DecidableEq, Inhabited

/-- The text of a truth value in an event. -/
def Event.truth (value : Bool) : String := if value then "true" else "false"

/-- A value together with the events of its computation, oldest first. -/
structure Logged (α : Type) where
  value : α
  events : List Event

namespace Logged

variable {α β : Type}

/-- A value without events. -/
def silent (value : α) : Logged α := ⟨value, []⟩

/-- Continue with a value; the events of both parts are kept in order. -/
def andThen (first : Logged α) (next : α → Logged β) : Logged β :=
  ⟨(next first.value).value, first.events ++ (next first.value).events⟩

/-- A single event. -/
def emit (event : Event) : Logged Unit := ⟨(), [event]⟩

instance : Monad Logged where
  pure := silent
  bind := andThen

@[simp] theorem value_pure (value : α) : (pure value : Logged α).value = value := rfl

@[simp] theorem events_pure (value : α) : (pure value : Logged α).events = [] := rfl

@[simp] theorem value_bind (first : Logged α) (next : α → Logged β) :
    (first >>= next).value = (next first.value).value := rfl

@[simp] theorem events_bind (first : Logged α) (next : α → Logged β) :
    (first >>= next).events = first.events ++ (next first.value).events := rfl

end Logged

end PathCover
