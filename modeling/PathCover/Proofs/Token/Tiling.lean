import PathCover.Proofs.Token.Spelling

/-!
# Tokens tile the text

Splitting a text into tokens loses nothing: the texts of the tokens put together are the text again.
No token is empty, so each one starts behind the one before it.
-/

namespace PathCover.Token

/-! ## Lexemes -/

theorem flatMap_text_lexemes (text : List Char) : (lexemes text).flatMap Lexeme.text = text := by
  fun_induction lexemes text with
  | case1 => rfl
  | case2 first rest kind length classified ih =>
      rw [List.flatMap_cons, ih, List.cons_append, List.take_append_drop]

theorem flatMap_text_joinTo (lexeme : Lexeme) (parts : List Lexeme) :
    (lexeme.joinTo parts).flatMap Lexeme.text = lexeme.text ++ parts.flatMap Lexeme.text := by
  cases parts with
  | nil => rfl
  | cons next rest =>
      rw [Lexeme.joinTo]
      split <;> simp

theorem flatMap_text_joinGarbage (parts : List Lexeme) :
    (joinGarbage parts).flatMap Lexeme.text = parts.flatMap Lexeme.text := by
  induction parts with
  | nil => rfl
  | cons lexeme parts ih =>
      rw [joinGarbage, List.foldr_cons, ← joinGarbage, flatMap_text_joinTo, ih, List.flatMap_cons]

theorem text_ne_nil_of_mem_lexemes (text : List Char) :
    ∀ lexeme ∈ lexemes text, lexeme.text ≠ [] := by
  fun_induction lexemes text with
  | case1 => simp
  | case2 first rest kind length classified ih =>
      rw [List.forall_mem_cons]
      exact ⟨List.cons_ne_nil _ _, ih⟩

theorem text_ne_nil_of_mem_joinGarbage {parts : List Lexeme}
    (filled : ∀ lexeme ∈ parts, lexeme.text ≠ []) :
    ∀ lexeme ∈ joinGarbage parts, lexeme.text ≠ [] := by
  induction parts with
  | nil => simp [joinGarbage]
  | cons lexeme parts ih =>
      rw [List.forall_mem_cons] at filled
      have later := ih filled.2
      rw [joinGarbage, List.foldr_cons, ← joinGarbage]
      cases joined : joinGarbage parts with
      | nil => simpa [Lexeme.joinTo] using filled.1
      | cons next rest =>
          rw [joined, List.forall_mem_cons] at later
          rw [Lexeme.joinTo]
          split
          · rw [List.forall_mem_cons]
            exact ⟨List.append_ne_nil_of_left_ne_nil filled.1 _, later.2⟩
          · rw [List.forall_mem_cons, List.forall_mem_cons]
            exact ⟨filled.1, later⟩

/-! ## Tokens -/

/-- The number of bytes of several tokens. -/
def width (tokens : List Token) : Nat :=
  tokens.foldr (fun token width => token.text.utf8ByteSize + width) 0

theorem utf8ByteSize_join (tokens : List Token) :
    (String.join (tokens.map Token.text)).utf8ByteSize = width tokens := by
  induction tokens with
  | nil => rfl
  | cons token tokens ih =>
      rw [List.map_cons, String.join_cons, String.utf8ByteSize_append, ih]
      rfl

theorem join_place (start : Nat) (parts : List Lexeme) :
    String.join ((place start parts).map Token.text) =
      String.ofList (parts.flatMap Lexeme.text) := by
  induction parts generalizing start with
  | nil => rfl
  | cons part rest ih =>
      rw [place, List.map_cons, String.join_cons, ih, List.flatMap_cons, String.ofList_append]

/-- The tokens of a text put together are the text. -/
theorem join_lex (text : String) : String.join ((lex text).map Token.text) = text := by
  rw [lex, join_place, flatMap_text_joinGarbage, flatMap_text_lexemes, String.ofList_toList]

theorem width_lex (text : String) : width (lex text) = text.utf8ByteSize := by
  rw [← utf8ByteSize_join, join_lex]

/-! ## Places -/

theorem utf8ByteSize_pos {chars : List Char} (filled : chars ≠ []) :
    0 < (String.ofList chars).utf8ByteSize := by
  rw [Nat.pos_iff_ne_zero, Ne, String.utf8ByteSize_eq_zero_iff]
  intro empty
  apply filled
  rw [← @String.toList_ofList chars, empty]
  rfl

/-- Placed tokens lie between the place of the first one and the end of the last one. -/
theorem bounds_of_mem_place {start : Nat} {parts : List Lexeme}
    (filled : ∀ lexeme ∈ parts, lexeme.text ≠ []) :
    ∀ token ∈ place start parts,
      start ≤ token.start ∧ token.start < start + width (place start parts) := by
  induction parts generalizing start with
  | nil => simp [place]
  | cons part rest ih =>
      rw [List.forall_mem_cons] at filled
      have size := utf8ByteSize_pos filled.1
      rw [place, List.forall_mem_cons, width, List.foldr_cons, ← width]
      refine ⟨⟨Nat.le_refl _, ?_⟩, ?_⟩
      · dsimp only
        omega
      · intro token member
        have bounds := ih filled.2 token member
        dsimp only [stop] at bounds ⊢
        omega

/-- Each placed token starts behind the one before it. -/
theorem pairwise_place {start : Nat} {parts : List Lexeme}
    (filled : ∀ lexeme ∈ parts, lexeme.text ≠ []) :
    (place start parts).Pairwise (·.start < ·.start) := by
  induction parts generalizing start with
  | nil => exact .nil
  | cons part rest ih =>
      rw [List.forall_mem_cons] at filled
      have size := utf8ByteSize_pos filled.1
      refine .cons ?_ (ih filled.2)
      intro token member
      have behind := (bounds_of_mem_place filled.2 token member).1
      dsimp only [stop] at behind ⊢
      omega

/-- The starts of the tokens of a text, blanks aside, and the end of the text. -/
def places (text : String) : List Nat :=
  ((lex text).filter (!·.kind.isTrivia)).map Token.start ++ [text.utf8ByteSize]

theorem pairwise_places (text : String) : (places text).Pairwise (· < ·) := by
  have filled := text_ne_nil_of_mem_joinGarbage (text_ne_nil_of_mem_lexemes text.toList)
  rw [places, List.pairwise_append]
  refine ⟨?_, List.pairwise_singleton _ _, ?_⟩
  · rw [List.pairwise_map]
    exact (pairwise_place filled).filter _
  · intro place member stop isStop
    obtain ⟨token, kept, rfl⟩ := List.mem_map.mp member
    have bounds := (bounds_of_mem_place filled token (List.mem_filter.mp kept).1).2
    rw [← lex, width_lex, Nat.zero_add] at bounds
    rw [List.mem_singleton.mp isStop]
    exact bounds

end PathCover.Token
