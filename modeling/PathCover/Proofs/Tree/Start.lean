import PathCover.ParsedPath
import PathCover.Proofs.Tree.Reading

/-!
# From text to reader

What a reader that starts on a text has in front of it, and what comes of its end.
-/

namespace PathCover

namespace Tree

/-- Attaching blanks keeps the other tokens. -/
theorem map_token_attachBlanks (tokens : List Token) :
    (attachBlanks tokens).1.map Leaf.token = tokens.filter (!·.kind.isTrivia) := by
  induction tokens with
  | nil => rfl
  | cons token rest ih =>
      cases trivia : token.kind.isTrivia with
      | false => simp [attachBlanks, trivia, ih]
      | true =>
          rw [List.filter_cons_of_neg (by simp [trivia]), ← ih]
          cases leaves : attachBlanks rest with
          | mk found trail => cases found <;> simp [attachBlanks, trivia, leaves]

/-- The reader that `parse` starts with. -/
def Reader.ofText (limits : Limits) (text : String) : Reader :=
  .start limits text.utf8ByteSize (Token.lex text)

theorem Reader.lexemes_ofText (limits : Limits) (text : String) :
    (Reader.ofText limits text).lexemes = Token.significant text := by
  have kept := congrArg (List.map Token.lexeme) (map_token_attachBlanks (Token.lex text))
  rw [List.map_map] at kept
  exact kept

/-- The tree of a text, and the reader that is left in the end. -/
def readText (limits : Limits) (text : String) : Root × Reader :=
  (root ((Token.significant text).length + 1)).run (.ofText limits text)

theorem parse_eq (limits : Limits) (text : String) :
    parse limits text = outcome (readText limits text).1 (readText limits text).2 := by
  rw [readText, ← Reader.lexemes_ofText limits, Reader.lexemes, List.length_map]
  rfl

/-- A text is parsed exactly if its reader was not stuck and hit no limit. -/
theorem outcome_eq_ok {tree : Root} {reader : Reader} {parsed : Parsed} :
    outcome tree reader = .ok parsed ↔ reader.stuck = false ∧ reader.exceeded = none ∧
      ⟨tree, reader.report, if reader.limits.tokens.isSome then reader.consumed else 0⟩ =
        parsed := by
  simp only [outcome]
  cases reader.stuck <;> cases reader.exceeded <;> simp

end Tree

namespace ParsedPath

variable {limits : Tree.Limits} {text : String}

/-- A text is parsed exactly if it has a tree. -/
theorem parse_eq_ofParsed {parsed : ParsedPath} :
    parse limits text = .ok parsed ↔
      ∃ tree, Tree.parse limits text = .ok tree ∧ ofParsed text tree = parsed := by
  rw [parse]
  cases Tree.parse limits text <;> simp [Except.map]

/-- A text is parsed exactly if its reader was neither stuck nor stopped by a limit, and its tree
and report are what the reader made. -/
theorem parse_eq_read {parsed : ParsedPath} :
    parse limits text = .ok parsed ↔ (Tree.readText limits text).2.stuck = false ∧
      (Tree.readText limits text).2.exceeded = none ∧
        ofParsed text ⟨(Tree.readText limits text).1, (Tree.readText limits text).2.report,
          if (Tree.readText limits text).2.limits.tokens.isSome then
            (Tree.readText limits text).2.consumed else 0⟩ = parsed := by
  rw [parse_eq_ofParsed, Tree.parse_eq]
  simp only [Tree.outcome_eq_ok]
  constructor
  · rintro ⟨_, ⟨free, within, rfl⟩, isParsed⟩
    exact ⟨free, within, isParsed⟩
  · rintro ⟨free, within, isParsed⟩
    exact ⟨_, ⟨free, within, rfl⟩, isParsed⟩

theorem parse_eq_error {failure : Tree.Failure} :
    parse limits text = .error failure ↔ Tree.parse limits text = .error failure := by
  rw [parse]
  cases Tree.parse limits text <;> simp [Except.map]

/-- A text of which something was evaluated is parsed. -/
theorem exists_of_toOption {α : Type} {property : ParsedPath → α} {value : α}
    (evaluated : (parse limits text).toOption.map property = some value) :
    ∃ parsed, parse limits text = .ok parsed ∧ property parsed = value := by
  cases isParsed : parse limits text with
  | error failure => simp [isParsed, Except.toOption] at evaluated
  | ok parsed => exact ⟨parsed, rfl, by simpa [isParsed, Except.toOption] using evaluated⟩

end ParsedPath

end PathCover
