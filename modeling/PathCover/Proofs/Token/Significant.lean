import PathCover.Token.Lexer

/-!
# The tokens that count

Blanks only separate tokens, and no rule of the grammar asks where a token stands.  What the grammar
sees of a text is therefore the list of its other tokens, each as a kind and a text.
-/

namespace PathCover.Token

/-- A token without its place. -/
def lexeme (token : Token) : Lexeme := ⟨token.kind, token.text.toList⟩

@[simp] theorem kind_lexeme (token : Token) : token.lexeme.kind = token.kind := rfl

/-- The tokens of a text that are not blanks, without their places. -/
def significant (text : String) : List Lexeme :=
  ((lex text).filter (!·.kind.isTrivia)).map lexeme

/-- Placing lexemes changes neither their kinds nor their texts. -/
@[simp] theorem map_lexeme_place (start : Nat) (parts : List Lexeme) :
    (place start parts).map lexeme = parts := by
  induction parts generalizing start with
  | nil => rfl
  | cons part rest ih => simp [place, lexeme, ih]

theorem map_lexeme_lex (text : String) :
    (lex text).map lexeme = joinGarbage (lexemes text.toList) :=
  map_lexeme_place 0 _

/-- The lexemes of a text other than blanks. -/
def withoutBlanks (text : List Char) : List Lexeme :=
  (joinGarbage (lexemes text)).filter (!·.kind.isTrivia)

theorem significant_eq (text : String) : significant text = withoutBlanks text.toList := by
  rw [withoutBlanks, ← map_lexeme_lex, List.filter_map]
  rfl

end PathCover.Token
