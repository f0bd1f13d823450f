import Mathlib.Data.List.Chain
import PathCover.Proofs.Token.Splice
import PathCover.Proofs.Token.Pattern

/-!
# Longest tokens

Reading a text finds at each place a text that some pattern matches, and none that is longer; where
no pattern matches anything, there is garbage, which goes on to the next token.  So the tokens of a
text tile it, each of them is the longest one that its text allows, and garbage never stands next
to garbage.
-/

namespace PathCover.Token

open Pattern

/-! ## Strings -/

theorem quotable_nil (quote : Char) : (quotable quote).Matches [] := matches_many_nil

theorem quotable_cons {quote c : Char} (other : c ≠ quote) {inside : List Char}
    (later : (quotable quote).Matches inside) : (quotable quote).Matches (c :: inside) :=
  matches_many_append
    (matches_either.mpr (.inl (matches_one.mpr ⟨c, by simpa using other, rfl⟩))) later

theorem quotable_doubled {quote : Char} {inside : List Char}
    (later : (quotable quote).Matches inside) :
    (quotable quote).Matches (quote :: quote :: inside) :=
  matches_many_append (matches_either.mpr (.inr (matches_word.mpr rfl))) later

/-- What is read behind a quote is what may stand in a string, and the closing quote. -/
theorem quotable_of_closing? (quote : Char) (text : List Char) :
    ∀ length ∈ closing? quote text, ∃ inside, text.take length = inside ++ [quote] ∧
      (quotable quote).Matches inside := by
  fun_induction closing? quote text with
  | case1 => simp
  | case2 => simpa using quotable_nil quote
  | case3 => simp
  | case4 rest ih =>
      intro length isLength
      cases later : closing? quote rest with
      | none =>
          obtain rfl : 1 = length := by simpa [later] using isLength
          exact ⟨[], rfl, quotable_nil quote⟩
      | some further =>
          obtain rfl : further + 2 = length := by simpa [later] using isLength
          obtain ⟨inside, taken, matched⟩ := ih further later
          exact ⟨quote :: quote :: inside, by simp [taken], quotable_doubled matched⟩
  | case5 => simpa using quotable_nil quote
  | case6 first second rest other ih =>
      intro length isLength
      obtain ⟨further, isFurther, rfl⟩ := Option.map_eq_some_iff.mp isLength
      obtain ⟨inside, taken, matched⟩ := ih further isFurther
      exact ⟨first :: inside, by simp [taken], quotable_cons other matched⟩

/-- Reading behind a quote goes at least as far as any string does that is there. -/
theorem length_lt_closing? {quote : Char} {inside : List Char}
    (matched : (quotable quote).Matches inside) (after : List Char) :
    ∃ length ∈ closing? quote (inside ++ quote :: after), inside.length < length := by
  obtain ⟨parts, rfl, all⟩ := matched
  -- Behind the last part stands a quote; it closes the string even where the next one doubles it.
  induction parts with
  | nil =>
      cases after with
      | nil => exact ⟨1, by simp [closing?], Nat.one_pos⟩
      | cons second rest =>
          by_cases doubled : second = quote
          · cases later : closing? quote rest with
            | none => exact ⟨1, by simp [closing?, doubled, later], Nat.one_pos⟩
            | some length =>
                exact ⟨length + 2, by simp [closing?, doubled, later], Nat.succ_pos _⟩
          · exact ⟨1, by simp [closing?, doubled], Nat.one_pos⟩
  | cons part parts ih =>
      -- Reading passes over one part as it is.
      obtain ⟨isPart, others⟩ := List.forall_mem_cons.mp all
      obtain ⟨length, closed, longer⟩ := ih others
      rcases isPart with ⟨c, isOther, rfl⟩ | isDoubled
      · have other : c ≠ quote := by simpa using isOther
        refine ⟨length + 1, ?_, by simpa using longer⟩
        obtain ⟨second, rest, split⟩ := List.exists_cons_of_ne_nil
          (l := parts.flatten ++ quote :: after) (by simp)
        rw [split] at closed
        simp [split, closing?, other, Option.mem_def.mp closed]
      · rw [matches_word] at isDoubled
        subst isDoubled
        exact ⟨length + 2, by simp [closing?, Option.mem_def.mp closed], by simpa using longer⟩

/-! ## One lexeme -/

theorem take_run (property : Char → Bool) (text : List Char) :
    text.take (run property text) = text.takeWhile property :=
  (List.prefix_iff_eq_take.mp (List.takeWhile_prefix property)).symm

theorem all_take_run (property : Char → Bool) (text : List Char) :
    (text.take (run property text)).all property = true := by
  rw [take_run]
  exact List.all_takeWhile

/-- The whole part of a number and, behind a dot, the fraction. -/
theorem take_wholeNumber (text : List Char) :
    ∃ whole fraction, text.take (wholeNumber text) = whole ++ fraction ∧
      whole.all Char.isDigit = true ∧
      (optional (both (char '.') (many (one Char.isDigit)))).Matches fraction := by
  have digits := all_take_run Char.isDigit text
  rw [wholeNumber]
  split
  · rename_i fraction isFraction
    have decimals := matches_many_one.mpr (all_take_run Char.isDigit fraction)
    refine ⟨_, '.' :: fraction.take (run Char.isDigit fraction), ?_, digits,
      .inl (matches_char_both.mpr ⟨_, rfl, decimals⟩)⟩
    rw [Nat.add_assoc, List.take_add, isFraction, Nat.add_comm 1, List.take_succ_cons]
  · exact ⟨_, [], (List.append_nil _).symm, digits, .inr rfl⟩

/-- A sign is an operator by itself. -/
theorem matches_operator {sign : Char}
    (isSign : ['=', '<', '>', '+', '|', '$', '-'].contains sign = true) :
    TokenKind.operator.Matches [sign] :=
  ⟨_, .tail _ (.tail _ (.tail _ (.head _))), matches_one.mpr ⟨sign, isSign, rfl⟩⟩

/-- A number that starts with its dot. -/
theorem matches_decimals {rest : List Char} (someDigit : run Char.isDigit rest ≠ 0) :
    TokenKind.number.Matches ('.' :: rest.take (run Char.isDigit rest)) := by
  have digits := all_take_run Char.isDigit rest
  have filled : rest.takeWhile Char.isDigit ≠ [] := fun none =>
    someDigit (List.length_eq_zero_iff.mpr none)
  rw [take_run] at digits ⊢
  obtain ⟨digit, more, taken⟩ := List.exists_cons_of_ne_nil filled
  rw [taken] at digits ⊢
  obtain ⟨isDigit, moreDigits⟩ := Bool.and_eq_true_iff.mp digits
  have several := matches_several_one.mpr ⟨digit, more, rfl, isDigit, moreDigits⟩
  exact ⟨_, .tail _ (.head _), matches_char_both.mpr ⟨_, rfl, several⟩⟩

/-- A number that starts with a digit. -/
theorem matches_wholeNumber {first : Char} (digit : first.isDigit = true) (rest : List Char) :
    TokenKind.number.Matches (first :: rest.take (wholeNumber rest)) := by
  obtain ⟨whole, fraction, taken, digits, isFraction⟩ := take_wholeNumber rest
  have several := matches_several_one.mpr ⟨first, whole, rfl, digit, digits⟩
  rw [taken]
  exact ⟨_, .head _, first :: whole, fraction, rfl, several, isFraction⟩

/-- What is read at a place is a text of its kind. -/
theorem matches_classify (first : Char) (rest : List Char)
    (notGarbage : (classify first rest).1 ≠ .garbage) :
    (classify first rest).1.Matches (first :: rest.take (classify first rest).2) := by
  have pair : ∀ {c : Char}, rest.head? = some c → rest.take 1 = [c] := by
    intro c isHead
    obtain ⟨tail, rfl⟩ := List.head?_eq_some_iff.mp isHead
    simp
  revert notGarbage
  unfold classify
  split
  -- Operators of one character, and `<=`, `>=` and `!=`.
  case h_9 | h_10 | h_11 | h_12 | h_13 => exact fun _ => matches_operator rfl
  case h_14 =>
    dsimp only
    split
    · rw [pair ‹_›]
      exact fun _ => ⟨_, .tail _ (.head _), matches_word.mpr rfl⟩
    · exact fun _ => matches_operator rfl
  case h_15 =>
    dsimp only
    split
    · rw [pair ‹_›]
      exact fun _ => ⟨_, .tail _ (.tail _ (.head _)), matches_word.mpr rfl⟩
    · exact fun _ => matches_operator rfl
  case h_16 =>
    split
    · rw [pair ‹_›]
      exact fun _ => ⟨_, .head _, matches_word.mpr rfl⟩
    · exact fun notGarbage => absurd rfl notGarbage
  -- `:` and `::`, `/` and `//`.
  case h_17 | h_18 =>
    split
    · rw [pair ‹_›]
      exact fun _ => ⟨_, .head _, matches_word.mpr rfl⟩
    · exact fun _ => ⟨_, .head _, matches_char.mpr rfl⟩
  -- `.`, `..` and numbers.
  case h_19 =>
    split
    · rw [pair ‹_›]
      exact fun _ => ⟨_, .head _, matches_word.mpr rfl⟩
    split
    · exact fun _ => ⟨_, .head _, matches_char.mpr rfl⟩
    · exact fun _ => matches_decimals ‹_›
  case h_20 =>
    split
    · obtain ⟨inside, taken, matched⟩ := quotable_of_closing? _ _ _ ‹_›
      rw [taken]
      exact fun _ => ⟨_, .head _, matches_quoted.mpr ⟨inside, rfl, matched⟩⟩
    · exact fun notGarbage => absurd rfl notGarbage
  case h_21 =>
    split
    · obtain ⟨inside, taken, matched⟩ := quotable_of_closing? _ _ _ ‹_›
      rw [taken]
      exact fun _ => ⟨_, .tail _ (.head _), matches_quoted.mpr ⟨inside, rfl, matched⟩⟩
    · exact fun notGarbage => absurd rfl notGarbage
  case h_22 =>
    split
    · have blanks := matches_several_one.mpr ⟨first, _, rfl, ‹_›, all_take_run isSpace rest⟩
      exact fun _ => ⟨_, .head _, blanks⟩
    split
    · exact fun _ => matches_wholeNumber ‹_› rest
    split
    · have parts := matches_many_one.mpr (all_take_run isNamePart rest)
      exact fun _ => ⟨_, .head _, matches_one_both.mpr ⟨first, _, rfl, ‹_›, parts⟩⟩
    · exact fun notGarbage => absurd rfl notGarbage
  -- Every other character is a token by itself.
  all_goals exact fun _ => ⟨_, .head _, matches_char.mpr rfl⟩

/-! ## Nothing longer -/

/-- What is read at a place is a token, and takes at least a number of characters behind the
first. -/
def Reaches (first : Char) (rest : List Char) (length : Nat) : Prop :=
  (classify first rest).1 ≠ .garbage ∧ length ≤ (classify first rest).2

theorem Reaches.of_eq {first : Char} {rest : List Char} {kind : TokenKind} {length further : Nat}
    (classified : classify first rest = (kind, further)) (notGarbage : kind ≠ .garbage)
    (bound : length ≤ further) : Reaches first rest length := by
  rw [Reaches, classified]
  exact ⟨notGarbage, bound⟩

/-- The characters that are tokens by themselves, if no longer one starts with them. -/
def alone : List Char :=
  ['(', ')', '[', ']', ',', ':', '/', '.', '@', '*', '?'] ++ ['=', '<', '>', '+', '|', '$', '-']

theorem reaches_alone {c : Char} (isAlone : c ∈ alone) (after : List Char) :
    Reaches c after 0 := by
  refine ⟨?_, Nat.zero_le _⟩
  simp only [alone, List.cons_append, List.nil_append, List.mem_cons, List.not_mem_nil,
    or_false] at isAlone
  rcases isAlone with rfl | rfl | rfl | rfl | rfl | rfl | rfl | rfl | rfl | rfl | rfl | rfl | rfl |
    rfl | rfl | rfl | rfl | rfl
  all_goals
    rw [classify]
    repeat' split
    all_goals simp

theorem reaches_quoted {quote : Char} (isQuote : quote = '"' ∨ quote = '\'') {text : List Char}
    (inside : (quotable quote).Matches text) (after : List Char) :
    Reaches quote (text ++ quote :: after) (text.length + 1) := by
  obtain ⟨length, closed, longer⟩ := length_lt_closing? inside after
  have classified : classify quote (text ++ quote :: after) = (.stringLiteral, length) := by
    rcases isQuote with rfl | rfl <;> rw [classify, Option.mem_def.mp closed]
  exact .of_eq classified (by decide) longer

theorem classify_of_isDigit {first : Char} (digit : first.isDigit = true) (rest : List Char) :
    classify first rest = (.number, wholeNumber rest) := by
  have notSpace : isSpace first = false := by
    cases space : isSpace first with
    | false => rfl
    | true =>
        simp only [isSpace, Bool.or_eq_true, decide_eq_true_eq] at space
        rcases space with ((rfl | rfl) | rfl) | rfl <;> cases digit
  unfold classify
  split
  case h_22 => simp [notSpace, digit]
  all_goals cases digit

/-- A whole number and, behind a dot, a fraction are read to their end at least. -/
theorem length_le_wholeNumber {whole fraction : List Char}
    (digits : whole.all Char.isDigit = true)
    (isFraction : (optional (both (char '.') (many (one Char.isDigit)))).Matches fraction)
    (after : List Char) :
    (whole ++ fraction).length ≤ wholeNumber (whole ++ fraction ++ after) := by
  rcases matches_optional.mp isFraction with dotted | rfl
  · obtain ⟨decimals, rfl, isDecimals⟩ := matches_char_both.mp dotted
    have longer := length_le_run (matches_many_one.mp isDecimals) after
    rw [List.append_assoc, List.cons_append, wholeNumber_dot digits, List.length_append,
      List.length_cons]
    omega
  · rw [List.append_nil]
    exact Nat.le_trans (length_le_run digits after) (run_le_wholeNumber _)

theorem reaches_decimals {digit : Char} {more : List Char} (isDigit : digit.isDigit = true)
    (digits : more.all Char.isDigit = true) (after : List Char) :
    Reaches '.' (digit :: more ++ after) (digit :: more).length := by
  have longer : (digit :: more).length ≤ run Char.isDigit (digit :: more ++ after) :=
    length_le_run (by rw [List.all_cons, isDigit, digits]; rfl) after
  have notDot : (digit :: more ++ after).head? ≠ some '.' := by
    rintro ⟨rfl⟩
    cases isDigit
  have someDigit : run Char.isDigit (digit :: more ++ after) ≠ 0 := by
    rw [List.length_cons] at longer
    omega
  have classified : classify '.' (digit :: more ++ after) =
      (.number, run Char.isDigit (digit :: more ++ after)) := by
    rw [classify, if_neg notDot, if_neg someDigit]
  exact .of_eq classified (by decide) longer

/-- Whatever a pattern matches at a place, what is read there is at least as long. -/
theorem reaches_of_matches {kind : TokenKind} {first : Char} {more : List Char}
    (matched : kind.Matches (first :: more)) (after : List Char) :
    Reaches first (more ++ after) more.length := by
  obtain ⟨pattern, member, matched⟩ := matched
  cases kind <;> simp only [TokenKind.patterns, List.mem_cons, List.not_mem_nil, or_false] at member
  -- Tokens of one character.
  case parenOpen | parenClose | bracketOpen | bracketClose | comma | colon | slash | dot | «at» |
      star | question =>
    subst member
    obtain ⟨rfl, rfl⟩ := List.cons.inj (matches_char.mp matched)
    exact reaches_alone (by decide) after
  -- Tokens of two.
  case colonColon | doubleSlash | dotDot =>
    subst member
    obtain ⟨rfl, rfl⟩ := List.cons.inj (matches_word.mp matched)
    exact .of_eq rfl (by decide) (Nat.le_refl _)
  case operator =>
    rcases member with rfl | rfl | rfl | rfl
    case inr.inr.inr =>
      obtain ⟨sign, isSign, same⟩ := matches_one.mp matched
      obtain ⟨rfl, rfl⟩ := List.cons.inj same
      exact reaches_alone (List.mem_append_right _ (List.contains_iff_mem.mp isSign)) after
    all_goals
      obtain ⟨rfl, rfl⟩ := List.cons.inj (matches_word.mp matched)
      exact .of_eq rfl (by decide) (Nat.le_refl _)
  case stringLiteral =>
    rcases member with rfl | rfl
    all_goals
      obtain ⟨text, same, inside⟩ := matches_quoted.mp matched
      obtain ⟨rfl, rfl⟩ := List.cons.inj same
      rw [List.append_assoc, List.length_append]
      exact reaches_quoted (by simp) inside after
  case number =>
    rcases member with rfl | rfl
    · obtain ⟨whole, fraction, same, isWhole, isFraction⟩ := matched
      obtain ⟨digit, digits, rfl, isDigit, areDigits⟩ := matches_several_one.mp isWhole
      obtain ⟨rfl, rfl⟩ := List.cons.inj same
      exact .of_eq (classify_of_isDigit isDigit _) (by decide)
        (length_le_wholeNumber areDigits isFraction after)
    · obtain ⟨decimals, same, isDecimals⟩ := matches_char_both.mp matched
      obtain ⟨digit, digits, rfl, isDigit, areDigits⟩ := matches_several_one.mp isDecimals
      obtain ⟨rfl, rfl⟩ := List.cons.inj same
      exact reaches_decimals isDigit areDigits after
  case name =>
    subst member
    obtain ⟨_, parts, same, starts, areParts⟩ := matches_one_both.mp matched
    obtain ⟨rfl, rfl⟩ := List.cons.inj same
    exact .of_eq (classify_of_isNameStart starts _) (by decide)
      (length_le_run (matches_many_one.mp areParts) after)
  case whitespace =>
    subst member
    obtain ⟨_, blanks, same, space, areBlanks⟩ := matches_several_one.mp matched
    obtain ⟨rfl, rfl⟩ := List.cons.inj same
    exact .of_eq (classify_of_isSpace space _) (by decide) (length_le_run areBlanks after)

/-! ## Garbage -/

/-- The kind of a lexeme is that of what is read where it starts. -/
def Lexeme.Opens (lexeme : Lexeme) (after : List Char) : Prop :=
  ∃ first rest, lexeme.text = first :: rest ∧ (classify first (rest ++ after)).1 = lexeme.kind

/-- Every lexeme has the kind of what is read where it starts. -/
def Opening : List Lexeme → Prop
  | [] => True
  | lexeme :: behind => lexeme.Opens (behind.flatMap Lexeme.text) ∧ Opening behind

theorem Opening.behind {front behind : List Lexeme} (opening : Opening (front ++ behind)) :
    Opening behind := by
  induction front with
  | nil => exact opening
  | cons _ _ ih => exact ih opening.2

theorem opening_lexemes (text : List Char) : Opening (lexemes text) := by
  fun_induction lexemes text with
  | case1 => trivial
  | case2 first rest kind length classified ih =>
      refine ⟨⟨first, rest.take length, rfl, ?_⟩, ih⟩
      rw [flatMap_text_lexemes, List.take_append_drop, classified]

theorem opening_joinTo {lexeme : Lexeme} {parts : List Lexeme}
    (opens : lexeme.Opens (parts.flatMap Lexeme.text)) (opening : Opening parts) :
    Opening (lexeme.joinTo parts) := by
  cases parts with
  | nil => exact ⟨opens, trivial⟩
  | cons next parts =>
      rw [Lexeme.joinTo]
      split
      · -- The joined garbage starts where its first part does.
        rename_i garbage
        obtain ⟨first, rest, isText, kind⟩ := opens
        refine ⟨⟨first, rest ++ next.text, by rw [isText, List.cons_append], ?_⟩, opening.2⟩
        rw [List.append_assoc, ← List.flatMap_cons, kind, garbage.1]
      · exact ⟨opens, opening⟩

theorem opening_joinGarbage {parts : List Lexeme} (opening : Opening parts) :
    Opening (joinGarbage parts) := by
  induction parts with
  | nil => trivial
  | cons lexeme parts ih =>
      rw [joinGarbage, List.foldr_cons, ← joinGarbage]
      refine opening_joinTo ?_ (ih opening.2)
      rw [flatMap_text_joinGarbage]
      exact opening.1

/-- Not both of two lexemes are garbage. -/
def Apart (lexeme next : Lexeme) : Prop := ¬ (lexeme.kind = .garbage ∧ next.kind = .garbage)

theorem isChain_joinTo (lexeme : Lexeme) {parts : List Lexeme} (chain : parts.IsChain Apart) :
    (lexeme.joinTo parts).IsChain Apart := by
  cases parts with
  | nil => exact .singleton _
  | cons next parts =>
      rw [Lexeme.joinTo]
      split
      · rename_i garbage
        cases parts with
        | nil => exact .singleton _
        | cons third parts =>
            obtain ⟨apart, later⟩ := List.isChain_cons_cons.mp chain
            exact .cons_cons (fun both => apart ⟨garbage.2, both.2⟩) later
      · exact .cons_cons ‹_› chain

/-- No garbage that is joined stands next to other garbage. -/
theorem isChain_joinGarbage (parts : List Lexeme) : (joinGarbage parts).IsChain Apart := by
  induction parts with
  | nil => exact .nil
  | cons lexeme parts ih => exact isChain_joinTo lexeme ih

/-! ## Tokens -/

/-- What a kind and a text in front of other text are if the text is the longest that matches, and
if nothing matches where garbage starts. -/
structure Longest (kind : TokenKind) (text after : List Char) : Prop where
  matched : kind ≠ .garbage → kind.Matches text
  longest : kind ≠ .garbage → ∀ (other : TokenKind) (front : List Char),
    front <+: text ++ after → other.Matches front → front.length ≤ text.length
  unmatched : kind = .garbage → ∀ (other : TokenKind) (front : List Char),
    front <+: text ++ after → other.Matches front → front = []

/-- What matches in front of a text is reached by what is read there. -/
theorem reaches_of_prefix {other : TokenKind} {front rest : List Char} {first : Char}
    (isFront : front <+: first :: rest) (matched : other.Matches front) :
    front = [] ∨ ∃ more, front = first :: more ∧ Reaches first rest more.length := by
  cases front with
  | nil => exact .inl rfl
  | cons c more =>
      obtain ⟨after, same⟩ := isFront
      obtain ⟨rfl, rfl⟩ := List.cons.inj same
      exact .inr ⟨more, rfl, reaches_of_matches matched after⟩

theorem longest_of_fits {lexeme : Lexeme} {after : List Char} (opens : lexeme.Opens after)
    (fits : lexeme.kind ≠ .garbage → lexeme.Fits after) :
    Longest lexeme.kind lexeme.text after where
  matched notGarbage := by
    obtain ⟨first, rest, isText, classified⟩ := fits notGarbage
    have matched := matches_classify first (rest ++ after) (by rwa [classified])
    rwa [classified, List.take_left, ← isText] at matched
  longest notGarbage other front isFront matched := by
    obtain ⟨first, rest, isText, classified⟩ := fits notGarbage
    rw [isText] at isFront ⊢
    obtain rfl | ⟨more, rfl, -, bound⟩ := reaches_of_prefix isFront matched
    · exact Nat.zero_le _
    · have same : classify first (rest.append after) = _ := classified
      rw [same] at bound
      exact Nat.succ_le_succ bound
  unmatched isGarbage other front isFront matched := by
    obtain ⟨first, rest, isText, kind⟩ := opens
    rw [isText] at isFront
    obtain isEmpty | ⟨more, -, notGarbage, -⟩ := reaches_of_prefix isFront matched
    · exact isEmpty
    · exact absurd (kind.trans isGarbage) notGarbage

theorem opening_lex (text : String) : Opening ((lex text).map lexeme) := by
  rw [map_lexeme_lex]
  exact opening_joinGarbage (opening_lexemes text.toList)

/-- A token has the kind of what is read where it starts. -/
theorem opens_of_mem_lex {text : String} {token : Token} (member : token ∈ lex text) :
    ∃ after, token.lexeme.Opens after := by
  obtain ⟨before, behind, tokens⟩ := List.append_of_mem member
  have opening := opening_lex text
  rw [tokens, List.map_append] at opening
  exact ⟨_, opening.behind.1⟩

theorem longest_of_lex {text : String} {before behind : List Token} {token : Token}
    (tokens : lex text = before ++ token :: behind) :
    Longest token.kind token.text.toList (chars behind) := by
  have fitting := fitting_lex text
  have opening := opening_lex text
  rw [tokens, List.map_append] at fitting opening
  have fits := fitting.behind.1
  have opens := opening.behind.1
  rw [flatMap_text_map] at fits opens
  exact longest_of_fits opens fits

/-- The first token starts at the front of the text, each later one where the one before it stops,
and the last one stops at the end. -/
theorem Tile.starts_append {start : Nat} {tokens : List Token} (tile : Tile start tokens) :
    tokens.map Token.start ++ [start + width tokens] = start :: tokens.map Token.stop := by
  induction tokens generalizing start with
  | nil => rfl
  | cons token tokens ih =>
      obtain ⟨rfl, tile⟩ := tile
      rw [List.map_cons, List.map_cons, List.cons_append, width_cons, ← Nat.add_assoc, ← stop,
        ih tile]

/-- The tokens of a text lie between the same places, seen from either side. -/
theorem starts_lex (text : String) :
    (lex text).map Token.start ++ [text.utf8ByteSize] = 0 :: (lex text).map Token.stop := by
  have starts := (tile_place 0 (joinGarbage (lexemes text.toList))).starts_append
  rwa [← lex, width_lex, Nat.zero_add] at starts

/-- No token is empty. -/
theorem start_lt_stop {text : String} {token : Token} (member : token ∈ lex text) :
    token.start < token.stop := by
  have isPart : token.lexeme ∈ joinGarbage (lexemes text.toList) := by
    rw [← map_lexeme_lex]
    exact List.mem_map_of_mem member
  have filled := text_ne_nil_of_mem_joinGarbage (text_ne_nil_of_mem_lexemes text.toList) _ isPart
  have size := utf8ByteSize_pos filled
  rw [text_lexeme, String.ofList_toList] at size
  exact Nat.lt_add_of_pos_right size

/-- Tokens tile the text, and are the longest that match. -/
theorem lex_longest (text : String) :
    (lex text).map Token.start ++ [text.utf8ByteSize] = 0 :: (lex text).map Token.stop ∧
      (lex text).IsChain (fun token next =>
        ¬ (token.kind = .garbage ∧ next.kind = .garbage)) ∧
      ∀ token ∈ lex text, token.start < token.stop ∧
        ∃ before after, text.toList = before ++ token.text.toList ++ after ∧
          token.start = Text.size before ∧
          Longest token.kind token.text.toList after := by
  have tile : Tile 0 (lex text) := tile_place 0 _
  refine ⟨starts_lex text, ?_, fun token member => ⟨start_lt_stop member, ?_⟩⟩
  · have apart := isChain_joinGarbage (lexemes text.toList)
    rw [← map_lexeme_lex, List.isChain_map] at apart
    exact apart
  · obtain ⟨before, behind, tokens⟩ := List.append_of_mem member
    refine ⟨chars before, chars behind, ?_, ?_, longest_of_lex tokens⟩
    · rw [← chars_lex, tokens, chars_append, chars_cons, List.append_assoc]
    · rw [tokens] at tile
      rw [size_chars, tile.behind.1, Nat.zero_add]

end PathCover.Token
