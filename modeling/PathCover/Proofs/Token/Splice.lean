import PathCover.Proofs.Text.Outside
import PathCover.Proofs.Token.Fitting

/-!
# Texts from which bracketed stretches are taken out

A text from which stretches that start with a bracket are taken out is made of the tokens that are
left.  None of them joins what comes after it now, as long as each stretch is followed by a
separator, a blank or the end of the text, and none comes right behind a slash.
-/

namespace PathCover.Token

open Text (Span)

/-- The characters of several tokens. -/
def chars (tokens : List Token) : List Char := tokens.flatMap (·.text.toList)

/-- The tokens among several that are no blanks, without their places. -/
def seen (tokens : List Token) : List Lexeme := (tokens.filter (!·.kind.isTrivia)).map lexeme

/-- Tokens that do not go on with a token in front of them other than a slash. -/
def Loose (tokens : List Token) : Prop :=
  ∀ next ∈ tokens.head?, next.kind.isTrivia = true ∨ next.kind.isSeparator = true

/-- The stretch that a token and those behind it cover. -/
def stretch (first : Token) (behind : List Token) : Span :=
  ⟨first.start, first.start + width (first :: behind)⟩

/-- Some tokens, the stretches that are taken out of them, and the tokens that are left. -/
inductive Spliced : List Token → List Span → List Token → Prop
  | nil : Spliced [] [] []
  | keep {tokens kept : List Token} {spans : List Span} (token : Token)
      (apart : token.kind = .slash → ∀ next ∈ tokens.head?, next.kind ≠ .bracketOpen)
      (rest : Spliced tokens spans kept) : Spliced (token :: tokens) spans (token :: kept)
  | cut {opener : Token} {tokens kept : List Token} {spans : List Span} (inside : List Token)
      (opens : opener.kind = .bracketOpen) (loose : Loose kept)
      (rest : Spliced tokens spans kept) :
      Spliced (opener :: inside ++ tokens) (stretch opener inside :: spans) kept

variable {tokens kept : List Token} {spans : List Span}

@[simp] theorem text_lexeme (token : Token) : token.lexeme.text = token.text.toList := rfl

@[simp] theorem chars_nil : chars [] = [] := rfl

@[simp] theorem chars_cons (token : Token) (tokens : List Token) :
    chars (token :: tokens) = token.text.toList ++ chars tokens := rfl

@[simp] theorem chars_append (front rest : List Token) :
    chars (front ++ rest) = chars front ++ chars rest :=
  List.flatMap_append

theorem flatMap_text_map (tokens : List Token) :
    (tokens.map lexeme).flatMap Lexeme.text = chars tokens := by
  rw [List.flatMap_map]
  rfl

@[simp] theorem seen_nil : seen [] = [] := rfl

theorem seen_cons (token : Token) (tokens : List Token) :
    seen (token :: tokens) =
      (if token.kind.isTrivia then [] else [token.lexeme]) ++ seen tokens := by
  cases trivia : token.kind.isTrivia <;> simp [seen, trivia]

@[simp] theorem seen_append (front rest : List Token) :
    seen (front ++ rest) = seen front ++ seen rest := by
  simp [seen]

/-- Blanks are not seen. -/
theorem seen_eq_nil {blanks : List Token} (trivia : ∀ blank ∈ blanks, blank.kind.isTrivia = true) :
    seen blanks = [] := by
  rw [seen, List.map_eq_nil_iff, List.filter_eq_nil_iff]
  intro blank isBlank
  simp [trivia blank isBlank]

/-- Tokens other than slashes are left in front of whatever follows. -/
theorem Spliced.front {front : List Token} (spliced : Spliced tokens spans kept)
    (noSlash : ∀ token ∈ front, token.kind ≠ .slash) :
    Spliced (front ++ tokens) spans (front ++ kept) := by
  induction front with
  | nil => exact spliced
  | cons token front ih =>
      rw [List.forall_mem_cons] at noSlash
      exact .keep token (fun isSlash => absurd isSlash noSlash.1) (ih noSlash.2)

/-- Blanks in front of loose tokens leave them loose. -/
theorem Loose.behind {blanks : List Token} (loose : Loose kept)
    (trivia : ∀ blank ∈ blanks, blank.kind.isTrivia = true) : Loose (blanks ++ kept) := by
  cases blanks with
  | nil => exact loose
  | cons blank blanks =>
      rintro _ ⟨rfl⟩
      exact .inl (trivia blank List.mem_cons_self)

/-! ## Reading what is left -/

theorem Spliced.sublist (spliced : Spliced tokens spans kept) : kept.Sublist tokens := by
  induction spliced with
  | nil => exact .slnil
  | keep token _ _ ih => exact ih.cons_cons token
  | cut _ _ _ _ ih => exact ih.trans (List.sublist_append_right _ _)

theorem Fitting.fits_of_mem {parts : List Lexeme} (fitting : Fitting parts) {lexeme : Lexeme}
    (member : lexeme ∈ parts) (notGarbage : lexeme.kind ≠ .garbage) :
    ∃ after, lexeme.Fits after := by
  obtain ⟨front, behind, rfl⟩ := List.append_of_mem member
  exact ⟨_, fitting.behind.1 notGarbage⟩

/-- A token that may be left: a blank, or one of which paths are made. -/
def Stands (token : Token) : Prop :=
  token.kind.isTrivia = true ∨ token.kind.standsInPath = true

theorem Stands.ne_garbage {token : Token} (stands : token.Stands) : token.kind ≠ .garbage := by
  rcases stands with trivia | inPath
  · rintro isGarbage
    rw [isGarbage] at trivia
    cases trivia
  · exact TokenKind.ne_garbage_of_standsInPath inPath

theorem Lexeme.Fits.ne_nil {lexeme : Lexeme} {after : List Char} (fits : lexeme.Fits after) :
    lexeme.text ≠ [] := by
  obtain ⟨first, rest, isText, -⟩ := fits
  rw [isText]
  exact List.cons_ne_nil _ _

theorem Spliced.fits (spliced : Spliced tokens spans kept) (fitting : Fitting (tokens.map lexeme))
    (stand : ∀ token ∈ kept, token.Stands) :
    ∀ token ∈ kept, ∃ after, token.lexeme.Fits after := by
  intro token member
  exact fitting.fits_of_mem (List.mem_map_of_mem (spliced.sublist.subset member))
    (stand token member).ne_garbage

theorem head?_chars {token : Token} {after : List Char} (fits : token.lexeme.Fits after)
    (tokens : List Token) : (chars (token :: tokens)).head? = token.lexeme.text.head? := by
  obtain ⟨first, rest, isText, -⟩ := fits
  rw [chars_cons, ← text_lexeme, isText]
  rfl

/-- Loose tokens start with a character that ends a token. -/
theorem Loose.head_mem_enders (loose : Loose kept)
    (fits : ∀ token ∈ kept, ∃ after, token.lexeme.Fits after) :
    ∀ c ∈ (chars kept).head?, c ∈ enders := by
  cases kept with
  | nil => simp
  | cons next kept =>
      obtain ⟨after, nextFits⟩ := fits next List.mem_cons_self
      rw [head?_chars nextFits]
      exact nextFits.head_mem_enders (loose next rfl)

/-- What is left behind a token may replace what was there before. -/
theorem Spliced.replaces (spliced : Spliced tokens spans kept)
    (fits : ∀ token ∈ kept, ∃ after, token.lexeme.Fits after) {kind : TokenKind}
    (apart : kind = .slash → ∀ next ∈ tokens.head?, next.kind ≠ .bracketOpen) :
    Replaces kind (chars tokens) (chars kept) := by
  cases spliced with
  | nil => exact .inl rfl
  | keep token =>
      obtain ⟨after, tokenFits⟩ := fits token List.mem_cons_self
      left
      rw [head?_chars tokenFits, head?_chars tokenFits]
  | cut inside opens loose =>
      right
      exact ⟨fun isSlash => apart isSlash _ rfl opens, loose.head_mem_enders fits⟩

/-- What is left behind a string does not go on with it. -/
theorem Spliced.apart (spliced : Spliced tokens spans kept) (stand : ∀ token ∈ kept, token.Stands)
    (fitting : Fitting (tokens.map lexeme)) {string : Token}
    (stringFits : string.lexeme.Fits (chars tokens)) (isString : string.kind = .stringLiteral) :
    (chars kept).head? ≠ string.lexeme.text.head? := by
  have fits := spliced.fits fitting stand
  cases spliced with
  | nil =>
      intro same
      exact stringFits.ne_nil (List.head?_eq_none_iff.mp same.symm)
  | keep next _ rest =>
      have notGarbage := (stand next List.mem_cons_self).ne_garbage
      have nextFits := fitting.1 notGarbage
      rw [head?_chars nextFits]
      rw [flatMap_text_map] at nextFits
      exact stringFits.apart isString nextFits notGarbage
  | cut inside opens loose =>
      intro same
      cases head : string.lexeme.text.head? with
      | none => exact stringFits.ne_nil (List.head?_eq_none_iff.mp head)
      | some quote =>
          have quoted := stringFits.starts quote head
          have ender := loose.head_mem_enders fits quote (same.trans head)
          rw [kind_lexeme, isString] at quoted
          rcases quoted with rfl | rfl <;> simp [enders] at ender

theorem Spliced.withoutBlanks_chars (spliced : Spliced tokens spans kept)
    (fitting : Fitting (tokens.map lexeme)) (stand : ∀ token ∈ kept, token.Stands) :
    withoutBlanks (chars kept) = seen kept := by
  induction spliced with
  | nil => simp [withoutBlanks, lexemes, joinGarbage]
  | @keep tokens kept spans token apart rest ih =>
      have later := ih fitting.2 fun other member => stand other (List.mem_cons_of_mem _ member)
      have standsHere := stand token List.mem_cons_self
      have fits := fitting.1 standsHere.ne_garbage
      rw [flatMap_text_map] at fits
      rcases standsHere with trivia | inPath
      · have blank := fits.isSpace trivia
        rw [chars_cons, ← text_lexeme, withoutBlanks_append blank, later, seen_cons, trivia]
        rfl
      · have keptStand : ∀ other ∈ kept, other.Stands := fun other member =>
          stand other (List.mem_cons_of_mem _ member)
        have replaces := rest.replaces (rest.fits fitting.2 keptStand) apart
        have notBlank := TokenKind.isTrivia_of_standsInPath inPath
        have notGarbage := TokenKind.ne_garbage_of_standsInPath inPath
        have refits := fits.before notBlank notGarbage replaces
          (rest.apart keptStand fitting.2 fits)
        rw [chars_cons, ← text_lexeme, refits.read notBlank notGarbage, later, seen_cons,
          notBlank]
        rfl
  | @cut opener tokens kept spans inside _ _ _ ih =>
      rw [List.map_append] at fitting
      exact ih fitting.behind stand

/-! ## Where the stretches lie -/

/-- The first of some tokens starts at a place, and each one where the one before it stops. -/
def Tile : Nat → List Token → Prop
  | _, [] => True
  | start, token :: behind => token.start = start ∧ Tile token.stop behind

theorem tile_place (start : Nat) (parts : List Lexeme) : Tile start (place start parts) := by
  induction parts generalizing start with
  | nil => trivial
  | cons part parts ih => exact ⟨rfl, ih _⟩

theorem width_cons (token : Token) (tokens : List Token) :
    width (token :: tokens) = token.text.utf8ByteSize + width tokens := rfl

theorem size_chars (tokens : List Token) : Text.size (chars tokens) = width tokens := by
  induction tokens with
  | nil => rfl
  | cons token tokens ih =>
      rw [Text.size, chars_cons, String.ofList_append, String.utf8ByteSize_append,
        String.ofList_toList, ← Text.size, ih, width_cons]

theorem Tile.behind {start : Nat} {front behind : List Token}
    (tile : Tile start (front ++ behind)) : Tile (start + width front) behind := by
  induction front generalizing start with
  | nil => exact tile
  | cons token front ih =>
      obtain ⟨rfl, tile⟩ := tile
      have later := ih tile
      rwa [stop, Nat.add_assoc, ← width_cons] at later

/-- The stretches that are taken out lie behind each other. -/
theorem Spliced.ordered (spliced : Spliced tokens spans kept) {start : Nat}
    (tile : Tile start tokens) :
    (∀ span ∈ spans, start ≤ span.start) ∧ spans.Pairwise (·.stop ≤ ·.start) := by
  induction spliced generalizing start with
  | nil => simp
  | keep token _ _ ih =>
      obtain ⟨rfl, tile⟩ := tile
      obtain ⟨behind, pairs⟩ := ih tile
      refine ⟨fun span member => ?_, pairs⟩
      exact Nat.le_trans (Nat.le_add_right _ _) (behind span member)
  | cut inside _ _ _ ih =>
      obtain ⟨behind, pairs⟩ := ih tile.behind
      obtain ⟨rfl, -⟩ := tile
      rw [List.forall_mem_cons, List.pairwise_cons]
      refine ⟨⟨Nat.le_refl _, fun span member => ?_⟩, behind, pairs⟩
      exact Nat.le_trans (Nat.le_add_right _ _) (behind span member)

/-- What is left of the characters are those of the tokens that are left. -/
theorem Spliced.outside_chars (spliced : Spliced tokens spans kept) {start : Nat}
    (tile : Tile start tokens) {earlier : List Span}
    (before : ∀ span ∈ earlier, span.stop ≤ start) :
    Text.outside (earlier ++ spans) start (chars tokens) = chars kept := by
  induction spliced generalizing start earlier with
  | nil => rfl
  | @keep tokens kept spans token _ rest ih =>
      obtain ⟨rfl, tile⟩ := tile
      obtain ⟨behind, -⟩ := rest.ordered tile
      have size : Text.size token.text.toList = token.text.utf8ByteSize := by
        rw [Text.size, String.ofList_toList]
      have here : Text.outside (earlier ++ spans) token.start token.text.toList =
          token.text.toList := by
        apply Text.outside_apart
        intro span member
        rcases List.mem_append.mp member with isEarlier | isLater
        · exact .inl (before span isEarlier)
        · exact .inr (size ▸ behind span isLater)
      rw [chars_cons, Text.outside_append, here, size, chars_cons]
      have later := ih tile fun span isEarlier =>
        Nat.le_trans (before span isEarlier) (Nat.le_add_right _ _)
      rw [stop] at later
      rw [later]
  | @cut opener tokens kept spans inside _ _ _ ih =>
      have starts : opener.start = start := tile.1
      have here : Text.outside (earlier ++ stretch opener inside :: spans) start
          (chars (opener :: inside)) = [] := by
        have member : stretch opener inside ∈ earlier ++ stretch opener inside :: spans := by simp
        apply Text.outside_covered member
        · exact Nat.le_of_eq starts
        · rw [size_chars, stretch, starts]
      rw [chars_append, Text.outside_append, here, size_chars, List.nil_append,
        List.append_cons]
      apply ih tile.behind
      intro span member
      rcases List.mem_append.mp member with isEarlier | isHere
      · exact Nat.le_trans (before span isEarlier) (Nat.le_add_right _ _)
      · rw [List.mem_singleton.mp isHere, stretch, starts]

/-! ## Whole texts -/

theorem chars_lex (text : String) : chars (lex text) = text.toList := by
  rw [← flatMap_text_map, map_lexeme_lex, flatMap_text_joinGarbage, flatMap_text_lexemes]

theorem fitting_lex (text : String) : Fitting ((lex text).map lexeme) := by
  rw [map_lexeme_lex]
  exact fitting_joinGarbage (fitting_lexemes text.toList)

/-- A text without stretches that are taken out is read as the tokens that are left. -/
theorem Spliced.significant_without {text : String} (spliced : Spliced (lex text) spans kept)
    (stand : ∀ token ∈ kept, token.Stands) :
    significant (Text.without spans text) = seen kept := by
  have left := spliced.outside_chars (tile_place 0 _) (List.forall_mem_nil _)
  rw [chars_lex, List.nil_append] at left
  rw [significant_eq, Text.without, left, String.toList_ofList]
  exact spliced.withoutBlanks_chars (fitting_lex text) stand

/-- No more tokens are left than there were. -/
theorem Spliced.length_seen_le (spliced : Spliced tokens spans kept) :
    (seen kept).length ≤ (seen tokens).length :=
  ((spliced.sublist.filter _).map _).length_le

end PathCover.Token
