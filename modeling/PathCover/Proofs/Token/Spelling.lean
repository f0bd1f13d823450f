import Mathlib.Data.List.TakeWhile
import PathCover.Proofs.Token.Significant

/-!
# Lexing a text piece by piece

The longest match at one place may reach into what follows.  A piece of text spells lexemes when it
is lexed into exactly these in front of every text that starts with certain characters; pieces that
fit together spell the lexemes of both.
-/

namespace PathCover.Token

/-! ## One lexeme -/

theorem lexemes_cons (first : Char) (rest : List Char) :
    lexemes (first :: rest) =
      ⟨(classify first rest).1, first :: rest.take (classify first rest).2⟩ ::
        lexemes (rest.drop (classify first rest).2) := by
  rw [lexemes]

theorem joinTo_of_ne_garbage {lexeme : Lexeme} (notGarbage : lexeme.kind ≠ .garbage)
    (parts : List Lexeme) : lexeme.joinTo parts = lexeme :: parts := by
  cases parts with
  | nil => rfl
  | cons next rest => simp [Lexeme.joinTo, notGarbage]

/-- What is not garbage is lexed by itself, whatever follows. -/
theorem withoutBlanks_cons {first : Char} {rest : List Char} {kind : TokenKind} {length : Nat}
    (classified : classify first rest = (kind, length)) (notGarbage : kind ≠ .garbage) :
    withoutBlanks (first :: rest) =
      (if kind.isTrivia then [] else [⟨kind, first :: rest.take length⟩]) ++
        withoutBlanks (rest.drop length) := by
  rw [withoutBlanks, lexemes_cons, classified, joinGarbage, List.foldr_cons,
    joinTo_of_ne_garbage notGarbage, List.filter_cons]
  cases kind.isTrivia <;> rfl

/-! ## Names -/

/-- Whether a text has the shape of a name. -/
def isNameText : List Char → Bool
  | [] => false
  | first :: rest => isNameStart first && rest.all isNamePart

/-- The characters other than digits that start a token but no name. -/
def signs : List Char :=
  ['(', ')', '[', ']', ',', '@', '*', '?', '=', '+', '|', '$', '-', '<', '>', '!', ':', '/', '.',
    '"', '\'', ' ', '\t', '\r', '\n']

theorem isNameStart_of_mem_signs : ∀ c ∈ signs, isNameStart c = false := by
  have none : signs.all (isNameStart · = false) = true := by decide +kernel
  simpa using none

/-- Letters stand above digits. -/
theorem isNameStart_of_isDigit {c : Char} (digit : c.isDigit = true) : isNameStart c = false := by
  have upper : c.toNat ≤ 57 := by
    simp only [Char.isDigit, Bool.and_eq_true, decide_eq_true_eq] at digit
    exact digit.2
  have noLetter : Text.isLetter c = false := by
    show (if c.toNat < 65 then false else _) = false
    rw [if_pos (by omega)]
  have notUnderscore : c ≠ '_' := by
    rintro rfl
    cases digit
  simp [isNameStart, noLetter, notUnderscore]

theorem classify_of_isNameStart {first : Char} (starts : isNameStart first = true)
    (rest : List Char) : classify first rest = (.name, run isNamePart rest) := by
  have noSign : ∀ c ∈ signs, first ≠ c := by
    rintro c member rfl
    rw [isNameStart_of_mem_signs first member] at starts
    cases starts
  have noDigit : first.isDigit = false := by
    rw [Bool.eq_false_iff]
    intro digit
    rw [isNameStart_of_isDigit digit] at starts
    cases starts
  have noSpace : isSpace first = false := by
    simp [isSpace, noSign ' ' (by decide), noSign '\t' (by decide), noSign '\r' (by decide),
      noSign '\n' (by decide)]
  unfold classify
  split
  case h_22 => simp [noSpace, noDigit, starts]
  all_goals exact absurd rfl (noSign _ (by decide))

/-- Nothing else is a name. -/
theorem kind_classify_ne_name {first : Char} (starts : isNameStart first = false)
    (rest : List Char) : (classify first rest).1 ≠ .name := by
  unfold classify
  split
  case h_22 => simp only [starts, Bool.false_eq_true, if_false]; split <;> (try split) <;> simp
  all_goals first | (intro isName; cases isName) | (split <;> (try split) <;> simp)

/-- A text that is one token, and that token a name. -/
def IsName (text : String) : Prop := (lex text).map Token.kind = [.name]

theorem joinTo_eq_cons (lexeme : Lexeme) (parts : List Lexeme) :
    ∃ text rest, lexeme.joinTo parts = ⟨lexeme.kind, text⟩ :: rest := by
  cases parts with
  | nil => exact ⟨_, _, rfl⟩
  | cons next rest =>
      by_cases both : lexeme.kind = .garbage ∧ next.kind = .garbage
      · exact ⟨_, _, by rw [Lexeme.joinTo, if_pos both, both.1]⟩
      · exact ⟨_, _, by rw [Lexeme.joinTo, if_neg both]⟩

theorem joinGarbage_lexemes_eq_nil {text : List Char} (nothing : joinGarbage (lexemes text) = []) :
    text = [] := by
  cases text with
  | nil => rfl
  | cons first rest =>
      obtain ⟨_, _, joined⟩ := joinTo_eq_cons
        ⟨(classify first rest).1, first :: rest.take (classify first rest).2⟩
        (joinGarbage (lexemes (rest.drop (classify first rest).2)))
      rw [lexemes_cons, joinGarbage, List.foldr_cons, ← joinGarbage, joined] at nothing
      cases nothing

theorem IsName.isNameText {text : String} (isName : IsName text) :
    isNameText text.toList = true := by
  have kinds : (joinGarbage (lexemes text.toList)).map Lexeme.kind = [.name] := by
    rw [← map_lexeme_lex, List.map_map]
    exact isName
  cases chars : text.toList with
  | nil => simp [chars, lexemes, joinGarbage] at kinds
  | cons first rest =>
      rw [chars, lexemes_cons, joinGarbage, List.foldr_cons, ← joinGarbage] at kinds
      obtain ⟨_, _, joined⟩ := joinTo_eq_cons
        ⟨(classify first rest).1, first :: rest.take (classify first rest).2⟩
        (joinGarbage (lexemes (rest.drop (classify first rest).2)))
      have kind : (classify first rest).1 = .name := by
        rw [joined] at kinds
        exact (List.cons.inj kinds).1
      have starts : isNameStart first = true := by
        rw [← Bool.not_eq_false]
        intro notStart
        exact kind_classify_ne_name notStart rest kind
      have notGarbage : (classify first rest).1 ≠ .garbage := by
        rw [kind]
        decide
      rw [joinTo_of_ne_garbage notGarbage] at kinds
      have nothingLeft :=
        joinGarbage_lexemes_eq_nil (List.map_eq_nil_iff.mp (List.cons.inj kinds).2)
      rw [classify_of_isNameStart starts, List.drop_eq_nil_iff] at nothingLeft
      have allParts : rest.takeWhile isNamePart = rest :=
        (List.takeWhile_prefix isNamePart).eq_of_length_le nothingLeft
      rw [Token.isNameText, starts, Bool.true_and, ← allParts]
      exact List.all_takeWhile

theorem isName_iff {text : String} : IsName text ↔ isNameText text.toList = true := by
  refine ⟨IsName.isNameText, fun shape => ?_⟩
  have kinds : (lex text).map Token.kind =
      (joinGarbage (lexemes text.toList)).map Lexeme.kind := by
    rw [← map_lexeme_lex, List.map_map]
    rfl
  rw [IsName, kinds]
  cases chars : text.toList with
  | nil => rw [chars] at shape; cases shape
  | cons first rest =>
      rw [chars] at shape
      obtain ⟨starts, parts⟩ := Bool.and_eq_true_iff.mp shape
      have whole : run isNamePart rest = rest.length := by
        rw [run, List.takeWhile_eq_self_iff.mpr (List.all_eq_true.mp parts)]
      simp [lexemes_cons, classify_of_isNameStart starts, whole, lexemes, joinGarbage,
        Lexeme.joinTo]

instance (text : String) : Decidable (IsName text) := decidable_of_iff _ isName_iff.symm

theorem isNamePart_of_isNameStart {c : Char} (starts : isNameStart c = true) :
    isNamePart c = true := by
  simp only [isNameStart, Bool.or_eq_true] at starts
  rcases starts with letter | underscore
  · simp [isNamePart, letter]
  · simp only [isNamePart, underscore, Bool.or_true, Bool.true_or]

theorem all_isNamePart {text : List Char} (isName : isNameText text = true) :
    text.all isNamePart = true := by
  cases text with
  | nil => rfl
  | cons first rest =>
      obtain ⟨starts, parts⟩ := Bool.and_eq_true_iff.mp isName
      rw [List.all_cons, isNamePart_of_isNameStart starts, parts, Bool.and_self]

/-! ## The names of a text -/

theorem isNameText_of_mem_lexemes (text : List Char) :
    ∀ lexeme ∈ lexemes text, lexeme.kind = .name → isNameText lexeme.text = true := by
  fun_induction lexemes text with
  | case1 => simp
  | case2 first rest kind length classified ih =>
      rw [List.forall_mem_cons]
      refine ⟨?_, ih⟩
      rintro rfl
      have starts : isNameStart first = true := by
        rw [← Bool.not_eq_false]
        intro notStart
        exact kind_classify_ne_name notStart rest (congrArg Prod.fst classified)
      obtain rfl : run isNamePart rest = length := by
        rw [classify_of_isNameStart starts] at classified
        exact (Prod.mk.inj classified).2
      have isPrefix := List.prefix_iff_eq_take.mp (List.takeWhile_prefix isNamePart (l := rest))
      rw [isNameText, starts, Bool.true_and, run, ← isPrefix]
      exact List.all_takeWhile

/-- Joining garbage leaves other lexemes alone. -/
theorem mem_of_mem_joinGarbage {parts : List Lexeme} {lexeme : Lexeme}
    (member : lexeme ∈ joinGarbage parts) (notGarbage : lexeme.kind ≠ .garbage) :
    lexeme ∈ parts := by
  induction parts with
  | nil => exact member
  | cons first parts ih =>
      rw [joinGarbage, List.foldr_cons, ← joinGarbage] at member
      cases joined : joinGarbage parts with
      | nil =>
          rw [joined] at member
          exact List.mem_cons.mpr (.inl (List.mem_singleton.mp member))
      | cons next rest =>
          rw [joined, Lexeme.joinTo] at member
          rw [joined] at ih
          split at member
          · rcases List.mem_cons.mp member with rfl | member
            · exact absurd rfl notGarbage
            · exact List.mem_cons_of_mem _ (ih (List.mem_cons_of_mem _ member))
          · rcases List.mem_cons.mp member with rfl | member
            · exact List.mem_cons_self
            · exact List.mem_cons_of_mem _ (ih member)

/-- The tokens of a text that are names have the shape of names. -/
theorem isNameText_of_mem_significant {text : String} {lexeme : Lexeme}
    (member : lexeme ∈ significant text) (isName : lexeme.kind = .name) :
    isNameText lexeme.text = true := by
  rw [significant_eq, withoutBlanks] at member
  have inLexemes := mem_of_mem_joinGarbage (List.mem_filter.mp member).1 (by rw [isName]; decide)
  exact isNameText_of_mem_lexemes text.toList lexeme inLexemes isName

/-! ## Pieces of text -/

/-- A text is lexed into these lexemes, blanks aside, in front of everything that is empty or starts
with an accepted character. -/
def Spells (text : List Char) (parts : List Lexeme) (accepted : Char → Prop) : Prop :=
  ∀ rest : List Char, (∀ c ∈ rest.head?, accepted c) →
    withoutBlanks (text ++ rest) = parts ++ withoutBlanks rest

/-- A name is read up to a character that cannot go on with it. -/
def EndsName (c : Char) : Prop := isNamePart c = false

theorem endsName_sign : ∀ c ∈ [':', ',', '(', ')', '/', '*'], EndsName c := by
  have none : [':', ',', '(', ')', '/', '*'].all (isNamePart · = false) = true := by
    decide +kernel
  simpa [EndsName] using none

theorem Spells.mono {text : List Char} {parts : List Lexeme} {accepted accepted' : Char → Prop}
    (spells : Spells text parts accepted) (less : ∀ c, accepted' c → accepted c) :
    Spells text parts accepted' :=
  fun rest stops => spells rest fun c isHead => less c (stops c isHead)

theorem Spells.append {text text' : List Char} {parts parts' : List Lexeme}
    {accepted accepted' : Char → Prop} (first : Spells text parts accepted)
    (second : Spells text' parts' accepted') (joins : ∃ c ∈ text'.head?, accepted c) :
    Spells (text ++ text') (parts ++ parts') accepted' := by
  intro rest stops
  obtain ⟨c, isHead, accepts⟩ := joins
  obtain ⟨tail, rfl⟩ := List.head?_eq_some_iff.mp isHead
  rw [List.append_assoc, first _ (by rintro _ ⟨rfl⟩; exact accepts), second rest stops,
    List.append_assoc]

/-- A run of characters ends where its text does if what follows does not go on with it. -/
theorem takeWhile_append {property : Char → Bool} {text rest : List Char}
    (inside : text.all property = true) (stops : ∀ c ∈ rest.head?, property c = false) :
    (text ++ rest).takeWhile property = text := by
  have nothing : rest.takeWhile property = [] := by
    rw [← List.head?_eq_none_iff, List.head?_takeWhile, Option.filter_eq_none_iff]
    intro c isHead
    simp [stops c isHead]
  rw [List.takeWhile_append_of_pos (List.all_eq_true.mp inside), nothing, List.append_nil]

theorem dropWhile_append {property : Char → Bool} {text rest : List Char}
    (inside : text.all property = true) (stops : ∀ c ∈ rest.head?, property c = false) :
    (text ++ rest).dropWhile property = rest := by
  have split := List.takeWhile_append_dropWhile (p := property) (l := text ++ rest)
  rw [takeWhile_append inside stops] at split
  exact List.append_cancel_left split

theorem run_append {property : Char → Bool} {text rest : List Char}
    (inside : text.all property = true) (stops : ∀ c ∈ rest.head?, property c = false) :
    run property (text ++ rest) = text.length := by
  rw [run, takeWhile_append inside stops]

theorem spells_name {name : List Char} (isName : isNameText name = true) :
    Spells name [⟨.name, name⟩] EndsName := by
  intro rest stops
  cases name with
  | nil => cases isName
  | cons first name =>
      obtain ⟨starts, parts⟩ := Bool.and_eq_true_iff.mp isName
      rw [List.cons_append, withoutBlanks_cons (classify_of_isNameStart starts _) (by decide),
        run_append parts stops, List.take_left, List.drop_left]
      rfl

/-- A character that is a token by itself. -/
theorem spells_char {c : Char} {kind : TokenKind} (alone : ∀ rest, classify c rest = (kind, 0))
    (notGarbage : kind ≠ .garbage) (visible : kind.isTrivia = false) :
    Spells [c] [⟨kind, [c]⟩] (fun _ => True) := by
  intro rest _
  simp [withoutBlanks_cons (alone rest) notGarbage, visible]

theorem spells_colon : Spells [':'] [⟨.colon, [':']⟩] (· ≠ ':') := by
  intro rest stops
  have single : classify ':' rest = (.colon, 0) := by
    rw [classify, if_neg]
    intro isHead
    exact stops ':' isHead rfl
  simp [withoutBlanks_cons single, TokenKind.isTrivia]

theorem spells_slash : Spells ['/'] [⟨.slash, ['/']⟩] (· ≠ '/') := by
  intro rest stops
  have single : classify '/' rest = (.slash, 0) := by
    rw [classify, if_neg]
    intro isHead
    exact stops '/' isHead rfl
  simp [withoutBlanks_cons single, TokenKind.isTrivia]

theorem spells_dot : Spells ['.'] [⟨.dot, ['.']⟩] (· = '/') := by
  intro rest stops
  have single : classify '.' rest = (.dot, 0) := by
    cases rest with
    | nil => rfl
    | cons next rest =>
        obtain rfl : next = '/' := stops next rfl
        rfl
  simp [withoutBlanks_cons single, TokenKind.isTrivia]

/-- A token of the same character written twice. -/
theorem spells_pair {c : Char} {kind : TokenKind}
    (pair : ∀ rest, classify c (c :: rest) = (kind, 1)) (notGarbage : kind ≠ .garbage)
    (visible : kind.isTrivia = false) : Spells [c, c] [⟨kind, [c, c]⟩] (fun _ => True) := by
  intro rest _
  simp [withoutBlanks_cons (pair rest) notGarbage, visible]

/-- A blank is skipped. -/
theorem spells_blank : Spells [' '] [] (isSpace · = false) := by
  intro rest stops
  have nothing : run isSpace ([] ++ rest) = 0 := run_append rfl stops
  have single : classify ' ' rest = (.whitespace, 0) :=
    congrArg (Prod.mk TokenKind.whitespace) nothing
  simp [withoutBlanks_cons single, TokenKind.isTrivia]

end PathCover.Token
