import PathCover.Proofs.Token.Fitting

/-!
# Token patterns

Every kind of token but garbage has patterns, which say what its texts look like without saying how
they are found.  What a pattern accepts is defined by its form alone; a text is matched or not,
whatever stands around it.
-/

namespace PathCover

/-- A pattern for texts. -/
inductive Pattern where
  /-- One character of a class. -/
  | one (accepts : Char → Bool)
  | nothing
  | both (first second : Pattern)
  | either (first second : Pattern)
  /-- Any number of texts of a pattern, one behind the other. -/
  | many (part : Pattern)

namespace Pattern

/-- Whether a pattern matches a whole text. -/
def Matches : Pattern → List Char → Prop
  | one accepts, text => ∃ c, accepts c = true ∧ text = [c]
  | nothing, text => text = []
  | both first second, text =>
      ∃ front rest, text = front ++ rest ∧ first.Matches front ∧ second.Matches rest
  | either first second, text => first.Matches text ∨ second.Matches text
  | many part, text => ∃ parts : List (List Char), text = parts.flatten ∧
      ∀ one ∈ parts, part.Matches one

/-- A given character. -/
def char (c : Char) : Pattern := one (· = c)

/-- A given text. -/
def word : List Char → Pattern
  | [] => nothing
  | c :: rest => both (char c) (word rest)

/-- A pattern that may be left out. -/
def optional (part : Pattern) : Pattern := either part nothing

/-- At least one text of a pattern. -/
def several (part : Pattern) : Pattern := both part (many part)

/-- What may stand in a string in quotes: every other character, and the quote twice. -/
def quotable (quote : Char) : Pattern := many (either (one (· ≠ quote)) (word [quote, quote]))

/-- A string in quotes. -/
def quoted (quote : Char) : Pattern := both (char quote) (both (quotable quote) (char quote))

section Matching

variable {accepts : Char → Bool} {first second part : Pattern} {c : Char} {text : List Char}

@[simp] theorem matches_char : (char c).Matches text ↔ text = [c] := by
  simp [char, Matches]

@[simp] theorem matches_word {word : List Char} :
    (Pattern.word word).Matches text ↔ text = word := by
  induction word generalizing text with
  | nil => rfl
  | cons c word ih => simp [Pattern.word, Matches, ih]

/-- Behind one character of a class stands what the next pattern matches. -/
theorem matches_one_both : (both (one accepts) second).Matches text ↔
    ∃ c rest, text = c :: rest ∧ accepts c = true ∧ second.Matches rest := by
  constructor
  · rintro ⟨_, rest, rfl, ⟨c, accepted, rfl⟩, matched⟩
    exact ⟨c, rest, rfl, accepted, matched⟩
  · rintro ⟨c, rest, rfl, accepted, matched⟩
    exact ⟨[c], rest, rfl, ⟨c, accepted, rfl⟩, matched⟩

theorem matches_char_both : (both (char c) second).Matches text ↔
    ∃ rest, text = c :: rest ∧ second.Matches rest := by
  rw [char, matches_one_both]
  simp only [decide_eq_true_eq]
  exact ⟨fun ⟨_, rest, split, same, matched⟩ => ⟨rest, same ▸ split, matched⟩,
    fun ⟨rest, split, matched⟩ => ⟨c, rest, split, rfl, matched⟩⟩

theorem matches_many_nil : (many part).Matches [] := ⟨[], rfl, by simp⟩

theorem matches_either :
    (either first second).Matches text ↔ first.Matches text ∨ second.Matches text := .rfl

theorem matches_optional : (optional part).Matches text ↔ part.Matches text ∨ text = [] := .rfl

theorem matches_one : (one accepts).Matches text ↔ ∃ c, accepts c = true ∧ text = [c] := .rfl

theorem matches_many_append {front rest : List Char} (matched : part.Matches front)
    (later : (many part).Matches rest) : (many part).Matches (front ++ rest) := by
  obtain ⟨parts, rfl, all⟩ := later
  exact ⟨front :: parts, rfl, List.forall_mem_cons.mpr ⟨matched, all⟩⟩

/-- A repeated class matches the texts all of whose characters are in it. -/
@[simp] theorem matches_many_one :
    (many (one accepts)).Matches text ↔ text.all accepts = true := by
  constructor
  · rintro ⟨parts, rfl, all⟩
    rw [List.all_flatten, List.all_eq_true]
    intro part member
    obtain ⟨c, accepted, rfl⟩ := all part member
    simpa using accepted
  · intro all
    induction text with
    | nil => exact matches_many_nil
    | cons c text ih =>
        obtain ⟨accepted, later⟩ := Bool.and_eq_true_iff.mp all
        exact matches_many_append (matches_one.mpr ⟨c, accepted, rfl⟩) (ih later)

@[simp] theorem matches_several_one : (several (one accepts)).Matches text ↔
    ∃ c rest, text = c :: rest ∧ accepts c = true ∧ rest.all accepts = true := by
  simp [several, matches_one_both]

/-- A string is what may stand in it between two quotes. -/
theorem matches_quoted : (quoted c).Matches text ↔
    ∃ inside, text = c :: (inside ++ [c]) ∧ (quotable c).Matches inside := by
  rw [quoted, matches_char_both]
  constructor
  · rintro ⟨_, rfl, inside, closing, rfl, matched, closes⟩
    exact ⟨inside, by rw [matches_char.mp closes], matched⟩
  · rintro ⟨inside, rfl, matched⟩
    exact ⟨_, rfl, inside, [c], rfl, matched, matches_char.mpr rfl⟩

end Matching

end Pattern

namespace TokenKind

/-- The patterns of a kind of token.  Garbage has none. -/
def patterns : TokenKind → List Pattern
  | .parenOpen => [.char '(']
  | .parenClose => [.char ')']
  | .bracketOpen => [.char '[']
  | .bracketClose => [.char ']']
  | .comma => [.char ',']
  | .colonColon => [.word [':', ':']]
  | .colon => [.char ':']
  | .doubleSlash => [.word ['/', '/']]
  | .slash => [.char '/']
  | .dotDot => [.word ['.', '.']]
  | .dot => [.char '.']
  | .at => [.char '@']
  | .star => [.char '*']
  | .question => [.char '?']
  | .operator =>
      [.word ['!', '='], .word ['<', '='], .word ['>', '='],
        .one (['=', '<', '>', '+', '|', '$', '-'].contains ·)]
  | .stringLiteral => [.quoted '"', .quoted '\'']
  | .number =>
      [.both (.several (.one Char.isDigit))
          (.optional (.both (.char '.') (.many (.one Char.isDigit)))),
        .both (.char '.') (.several (.one Char.isDigit))]
  | .name => [.both (.one Token.isNameStart) (.many (.one Token.isNamePart))]
  | .whitespace => [.several (.one Token.isSpace)]
  | .garbage => []

/-- Whether a text is one that a token of a kind may have. -/
def Matches (kind : TokenKind) (text : List Char) : Prop :=
  ∃ pattern ∈ kind.patterns, pattern.Matches text

end TokenKind

end PathCover
