import PathCover.Proofs.Token.Longest

/-!
# Stretches between tokens

What is pointed at in a text starts and ends between tokens.  One token is such a stretch, and so
are several tokens that stand together.
-/

namespace PathCover.Token

open Text (Span)

/-- The places between the tokens of a text, with the one in front of them all. -/
def boundaries (text : String) : List Nat := 0 :: (lex text).map stop

/-- A stretch of a text that starts and ends between tokens, and is empty at the end of the text
alone. -/
structure Framed (text : String) (span : Span) : Prop where
  start : span.start ∈ boundaries text
  stop : span.stop ∈ boundaries text
  ordered : span.start ≤ span.stop
  within : span.stop ≤ text.utf8ByteSize
  filled : span.start = span.stop → span.start = text.utf8ByteSize

variable {text : String} {token : Token} {place : Nat}

theorem mem_boundaries_iff : place ∈ boundaries text ↔
    (∃ token ∈ lex text, token.start = place) ∨ place = text.utf8ByteSize := by
  rw [boundaries, ← starts_lex, List.mem_append, List.mem_map, List.mem_singleton]

theorem start_mem_boundaries (member : token ∈ lex text) : token.start ∈ boundaries text :=
  mem_boundaries_iff.mpr (.inl ⟨token, member, rfl⟩)

theorem stop_mem_boundaries (member : token ∈ lex text) : token.stop ∈ boundaries text :=
  List.mem_cons_of_mem _ (List.mem_map_of_mem member)

theorem start_lt_size (member : token ∈ lex text) : token.start < text.utf8ByteSize := by
  have filled := text_ne_nil_of_mem_joinGarbage (text_ne_nil_of_mem_lexemes text.toList)
  have bounds := (bounds_of_mem_place filled token member).2
  rwa [← lex, width_lex, Nat.zero_add] at bounds

theorem le_size_of_mem_boundaries (member : place ∈ boundaries text) :
    place ≤ text.utf8ByteSize := by
  obtain ⟨token, isToken, rfl⟩ | rfl := mem_boundaries_iff.mp member
  · exact (start_lt_size isToken).le
  · exact Nat.le_refl _

theorem Framed.of_lt {span : Span} (start : span.start ∈ boundaries text)
    (stop : span.stop ∈ boundaries text) (filled : span.start < span.stop) : Framed text span :=
  ⟨start, stop, filled.le, le_size_of_mem_boundaries stop, fun same => absurd same filled.ne⟩

theorem Framed.ofToken (member : token ∈ lex text) : Framed text token.span :=
  .of_lt (start_mem_boundaries member) (stop_mem_boundaries member) (start_lt_stop member)

/-- The end of a text, where there is nothing. -/
theorem Framed.atEnd : Framed text ⟨text.utf8ByteSize, text.utf8ByteSize⟩ where
  start := mem_boundaries_iff.mpr (.inr rfl)
  stop := mem_boundaries_iff.mpr (.inr rfl)
  ordered := Nat.le_refl _
  within := Nat.le_refl _
  filled _ := rfl

/-- The whole text. -/
theorem Framed.whole : Framed text ⟨0, text.utf8ByteSize⟩ where
  start := List.mem_cons_self
  stop := mem_boundaries_iff.mpr (.inr rfl)
  ordered := Nat.zero_le _
  within := Nat.le_refl _
  filled empty := empty

/-! ## Several tokens -/

theorem Tile.le_start {start : Nat} {tokens : List Token} (tile : Tile start tokens) :
    ∀ token ∈ tokens, start ≤ token.start := by
  intro token member
  obtain ⟨front, behind, rfl⟩ := List.append_of_mem member
  rw [tile.behind.1]
  exact Nat.le_add_right _ _

theorem Tile.pairwise {start : Nat} {tokens : List Token} (tile : Tile start tokens) :
    tokens.Pairwise (·.stop ≤ ·.start) := by
  induction tokens generalizing start with
  | nil => exact .nil
  | cons token tokens ih => exact .cons tile.2.le_start (ih tile.2)

/-- Each token of a text stops in front of those behind it. -/
theorem pairwise_lex (text : String) : (lex text).Pairwise (·.stop ≤ ·.start) :=
  (tile_place 0 _).pairwise

theorem width_append (front behind : List Token) :
    width (front ++ behind) = width front + width behind := by
  induction front with
  | nil => exact (Nat.zero_add _).symm
  | cons token front ih => rw [List.cons_append, width_cons, width_cons, ih, Nat.add_assoc]

/-- Tokens that stand together. -/
theorem Framed.ofTokens {tokens : List Token} (together : tokens <:+: lex text)
    (isFirst : token ∈ tokens.head?) :
    Framed text ⟨token.start, token.start + width tokens⟩ := by
  obtain ⟨front, behind, split⟩ := together
  obtain ⟨others, rfl⟩ := List.head?_eq_some_iff.mp isFirst
  have member : token ∈ lex text := by
    rw [← split]
    simp
  have tile : Tile 0 (front ++ (token :: others ++ behind)) := by
    rw [← List.append_assoc, split]
    exact tile_place 0 _
  have starts : token.start = 0 + width front := tile.behind.1
  have ends := tile.behind.behind
  rw [← starts] at ends
  refine .of_lt (start_mem_boundaries member) (mem_boundaries_iff.mpr ?_) ?_
  · cases behind with
    | cons next behind => exact .inl ⟨next, by rw [← split]; simp, ends.1⟩
    | nil =>
        right
        rw [← width_lex, ← split, List.append_nil, width_append, starts, Nat.zero_add]
  · have filled := start_lt_stop member
    have size : width (token :: others) = token.text.utf8ByteSize + width others := rfl
    rw [Token.stop] at filled
    dsimp only
    omega

end PathCover.Token
