import PathCover.Text.Span

/-!
# Texts without some of their stretches

What is left of a text when given stretches are taken out of it.  Places are byte offsets, as in the
spans, and a character goes with the place of its first byte.
-/

namespace PathCover.Text

/-- Whether a place lies in a span. -/
def Span.holds (span : Span) (place : Nat) : Bool := span.start ≤ place && place < span.stop

/-- The number of bytes of some characters. -/
def size (chars : List Char) : Nat := (String.ofList chars).utf8ByteSize

@[simp] theorem size_nil : size [] = 0 := rfl

@[simp] theorem size_cons (c : Char) (rest : List Char) :
    size (c :: rest) = c.utf8Size + size rest := by
  rw [size, String.ofList_cons, String.utf8ByteSize_append, String.utf8ByteSize_singleton, size]

/-- The characters of a text that starts at `place`, except for those in one of the spans. -/
def outside (spans : List Span) : Nat → List Char → List Char
  | _, [] => []
  | place, c :: rest =>
      let later := outside spans (place + c.utf8Size) rest
      if spans.any (·.holds place) then later else c :: later

/-- A text without the given stretches. -/
def without (spans : List Span) (text : String) : String :=
  String.ofList (outside spans 0 text.toList)

variable {spans : List Span} {place : Nat} {chars : List Char}

theorem outside_append (spans : List Span) (place : Nat) (front rest : List Char) :
    outside spans place (front ++ rest) =
      outside spans place front ++ outside spans (place + size front) rest := by
  induction front generalizing place with
  | nil => rfl
  | cons c front ih =>
      rw [List.cons_append, outside, outside, ih, size_cons, Nat.add_assoc]
      split <;> rfl

/-- Characters that no span reaches stay. -/
theorem outside_apart
    (apart : ∀ span ∈ spans, span.stop ≤ place ∨ place + size chars ≤ span.start) :
    outside spans place chars = chars := by
  induction chars generalizing place with
  | nil => rfl
  | cons c chars ih =>
      have room := c.utf8Size_pos
      have notHeld : spans.any (·.holds place) = false := by
        rw [List.any_eq_false]
        intro span isSpan held
        simp only [Span.holds, Bool.and_eq_true, decide_eq_true_eq] at held
        have := apart span isSpan
        rw [size_cons] at this
        omega
      rw [outside, notHeld, ih]
      · rfl
      · intro span isSpan
        have := apart span isSpan
        rw [size_cons] at this
        omega

/-- Characters that one span covers are taken out. -/
theorem outside_covered {span : Span} (isSpan : span ∈ spans) (starts : span.start ≤ place)
    (stops : place + size chars ≤ span.stop) : outside spans place chars = [] := by
  induction chars generalizing place with
  | nil => rfl
  | cons c chars ih =>
      have room := c.utf8Size_pos
      rw [size_cons] at stops
      have held : spans.any (·.holds place) = true := by
        rw [List.any_eq_true]
        refine ⟨span, isSpan, ?_⟩
        simp only [Span.holds, Bool.and_eq_true, decide_eq_true_eq]
        omega
      rw [outside, held, ih (by omega) (by omega)]
      rfl

end PathCover.Text
