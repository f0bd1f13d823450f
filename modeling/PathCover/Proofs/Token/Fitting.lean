import PathCover.Proofs.Token.Tiling

/-!
# Lexemes in front of other texts

The longest match at one place may look at what follows it.  A lexeme fits in front of a text if it
is what is read there; every lexeme of a text fits in front of those behind it.  All but blanks and
garbage fit in front of other texts as well, as long as these start in the same way or with
something that ends a token.
-/

namespace PathCover

/-- The tokens of which paths are made, predicates and blanks aside. -/
def TokenKind.standsInPath : TokenKind → Bool
  | .bracketOpen | .bracketClose | .operator | .number | .whitespace | .garbage => false
  | _ => true

theorem TokenKind.standsInPath_of_isSeparator {kind : TokenKind}
    (separates : kind.isSeparator = true) : kind.standsInPath = true := by
  cases kind <;> first | rfl | cases separates

theorem TokenKind.isTrivia_of_standsInPath {kind : TokenKind}
    (stands : kind.standsInPath = true) : kind.isTrivia = false := by
  cases kind <;> first | rfl | cases stands

theorem TokenKind.ne_garbage_of_standsInPath {kind : TokenKind}
    (stands : kind.standsInPath = true) : kind ≠ .garbage := by
  rintro rfl
  cases stands

namespace Token

/-! ## Strings -/

theorem closing?_le (quote : Char) (text : List Char) :
    ∀ length ∈ closing? quote text, 0 < length ∧ length ≤ text.length := by
  fun_induction closing? quote text with
  | case1 => simp
  | case2 => simp
  | case3 => simp
  | case4 rest ih =>
      intro length isLength
      cases later : closing? quote rest with
      | none =>
          simp [later] at isLength
          simp [← isLength]
      | some further =>
          have bound := ih further (by rw [later]; rfl)
          simp [later] at isLength
          simp only [List.length_cons]
          omega
  | case5 => simp
  | case6 first second rest _ ih =>
      intro length isLength
      obtain ⟨further, isFurther, rfl⟩ := Option.map_eq_some_iff.mp isLength
      have bound := ih further isFurther
      simp only [List.length_cons] at bound ⊢
      omega

/-- Reading a string to its end takes it apart by its first two characters. -/
theorem closing?_eq_length {quote first second : Char} {text after : List Char}
    (closed : closing? quote (first :: second :: text ++ after) =
      some (first :: second :: text).length) :
    (first = quote → second = quote ∧ closing? quote (text ++ after) = some text.length) ∧
      (first ≠ quote → closing? quote (second :: text ++ after) =
        some (second :: text).length) := by
  rw [List.cons_append, List.cons_append, closing?] at closed
  constructor
  · intro isQuote
    rw [if_pos isQuote] at closed
    split at closed
    · rename_i doubled
      refine ⟨doubled, ?_⟩
      cases later : closing? quote (text ++ after) with
      | none => simp [later] at closed
      | some length => simpa [later] using closed
    · simp at closed
  · intro notQuote
    rw [if_neg notQuote] at closed
    obtain ⟨length, isLength, same⟩ := Option.map_eq_some_iff.mp closed
    rw [← List.cons_append] at isLength
    rw [isLength]
    simpa using same

/-- A string of one character is read to its end: that character is the quote, and what follows
does not double it. -/
theorem closing?_eq_one {quote last : Char} {after : List Char}
    (closed : closing? quote (last :: after) = some 1) :
    last = quote ∧ ∀ more, after = quote :: more → closing? quote more = none := by
  have positive : ∀ {text : List Char}, closing? quote text ≠ some 0 := fun isZero =>
    absurd (closing?_le _ _ _ isZero).1 (Nat.lt_irrefl 0)
  cases after with
  | nil => simpa [closing?] using closed
  | cons second more =>
      by_cases isQuote : last = quote
      · refine ⟨isQuote, ?_⟩
        rintro _ ⟨rfl, rfl⟩
        cases later : closing? quote more with
        | none => rfl
        | some length => simp [closing?, isQuote, later] at closed
      · simp [closing?, isQuote, positive] at closed

/-- A string that ends in front of one text ends in front of every text that does not start with
its quote. -/
theorem closing?_before {quote : Char} {after other : List Char}
    (apart : other.head? ≠ some quote) :
    (text : List Char) → closing? quote (text ++ after) = some text.length →
      closing? quote (text ++ other) = some text.length
  | [], closed => absurd (closing?_le _ _ _ closed).1 (Nat.lt_irrefl 0)
  | [last], closed => by
      obtain ⟨rfl, -⟩ := closing?_eq_one closed
      cases other with
      | nil => simp [closing?]
      | cons second other =>
          have notDoubled : second ≠ last := by simpa using apart
          simp [closing?, notDoubled]
  | first :: second :: text, closed => by
      obtain ⟨doubled, single⟩ := closing?_eq_length closed
      rw [List.cons_append, List.cons_append, closing?]
      by_cases isQuote : first = quote
      · obtain ⟨alsoQuote, later⟩ := doubled isQuote
        rw [if_pos isQuote, if_pos alsoQuote, closing?_before apart text later]
        rfl
      · rw [if_neg isQuote, ← List.cons_append,
          closing?_before apart (second :: text) (single isQuote)]
        rfl

/-- A string does not end in front of its quote where another string starts. -/
theorem closing?_open {quote : Char} {more : List Char} :
    (text : List Char) → closing? quote (text ++ quote :: more) = some text.length →
      closing? quote more = none
  | [], closed => absurd (closing?_le _ _ _ closed).1 (Nat.lt_irrefl 0)
  | [_], closed => (closing?_eq_one closed).2 more rfl
  | first :: second :: text, closed => by
      obtain ⟨doubled, single⟩ := closing?_eq_length closed
      by_cases isQuote : first = quote
      · exact closing?_open text (doubled isQuote).2
      · exact closing?_open (second :: text) (single isQuote)

/-! ## Lexemes that fit -/

theorem run_le (property : Char → Bool) (text : List Char) : run property text ≤ text.length :=
  (List.takeWhile_prefix property).length_le

/-- A text of a class is no longer than the run in front of which it stands. -/
theorem length_le_run {property : Char → Bool} {text : List Char}
    (inside : text.all property = true) (after : List Char) :
    text.length ≤ run property (text ++ after) := by
  rw [run, List.takeWhile_append_of_pos (List.all_eq_true.mp inside), List.length_append]
  exact Nat.le_add_right _ _

theorem wholeNumber_le (text : List Char) : wholeNumber text ≤ text.length := by
  have whole := run_le Char.isDigit text
  rw [wholeNumber]
  split
  · rename_i fraction isFraction
    have rest := congrArg List.length isFraction
    have digits := run_le Char.isDigit fraction
    rw [List.length_drop, List.length_cons] at rest
    omega
  · exact whole

theorem length_classify_le (first : Char) (rest : List Char) :
    (classify first rest).2 ≤ rest.length := by
  have paired : ∀ {c : Char}, rest.head? = some c → 1 ≤ rest.length := by
    intro c isHead
    obtain ⟨tail, rfl⟩ := List.head?_eq_some_iff.mp isHead
    simp
  unfold classify
  split
  case h_14 | h_15 =>
    dsimp only
    split
    · exact paired ‹_›
    · exact Nat.zero_le _
  case h_16 | h_17 | h_18 =>
    split
    · exact paired ‹_›
    · exact Nat.zero_le _
  case h_19 =>
    split
    · exact paired ‹_›
    split
    · exact Nat.zero_le _
    · exact run_le _ _
  case h_20 | h_21 =>
    split
    · exact (closing?_le _ _ _ ‹_›).2
    · exact Nat.le_refl _
  case h_22 =>
    split
    · exact run_le _ _
    split
    · exact wholeNumber_le _
    split
    · exact run_le _ _
    · exact Nat.zero_le _
  all_goals exact Nat.zero_le _

/-- A lexeme is what is read from its text in front of another one. -/
def Lexeme.Fits (lexeme : Lexeme) (after : List Char) : Prop :=
  ∃ first rest, lexeme.text = first :: rest ∧
    classify first (rest ++ after) = (lexeme.kind, rest.length)

/-- Every lexeme but garbage is what is read from its text in front of those behind it. -/
def Fitting : List Lexeme → Prop
  | [] => True
  | lexeme :: behind =>
      (lexeme.kind ≠ .garbage → lexeme.Fits (behind.flatMap Lexeme.text)) ∧ Fitting behind

theorem Fitting.behind {front behind : List Lexeme} (fitting : Fitting (front ++ behind)) :
    Fitting behind := by
  induction front with
  | nil => exact fitting
  | cons _ _ ih => exact ih fitting.2

theorem fitting_lexemes (text : List Char) : Fitting (lexemes text) := by
  fun_induction lexemes text with
  | case1 => trivial
  | case2 first rest kind length classified ih =>
      refine ⟨fun _ => ⟨first, rest.take length, rfl, ?_⟩, ih⟩
      have bound := length_classify_le first rest
      rw [classified] at bound
      rw [flatMap_text_lexemes, List.take_append_drop, classified, List.length_take,
        Nat.min_eq_left bound]

theorem fitting_joinTo {lexeme : Lexeme} {parts : List Lexeme}
    (fits : lexeme.kind ≠ .garbage → lexeme.Fits (parts.flatMap Lexeme.text))
    (fitting : Fitting parts) : Fitting (lexeme.joinTo parts) := by
  cases parts with
  | nil => exact ⟨fits, trivial⟩
  | cons next parts =>
      rw [Lexeme.joinTo]
      split
      · exact ⟨fun notGarbage => absurd rfl notGarbage, fitting.2⟩
      · exact ⟨fits, fitting⟩

theorem fitting_joinGarbage {parts : List Lexeme} (fitting : Fitting parts) :
    Fitting (joinGarbage parts) := by
  induction parts with
  | nil => trivial
  | cons lexeme parts ih =>
      rw [joinGarbage, List.foldr_cons, ← joinGarbage]
      refine fitting_joinTo ?_ (ih fitting.2)
      rw [flatMap_text_joinGarbage]
      exact fitting.1

/-! ## Other texts behind a lexeme -/

/-- The characters that end every token in front of them but a slash. -/
def enders : List Char := ['/', ' ', '\t', '\r', '\n']

/-- They go on with no name and no number. -/
theorem goesOn_of_mem_enders : ∀ c ∈ enders, isNamePart c = false ∧ c.isDigit = false := by
  have none : enders.all (fun c => !isNamePart c && !c.isDigit) = true := by decide +kernel
  simpa using none

/-- A run that ends where its text does is stopped by what follows. -/
theorem run_append_iff {property : Char → Bool} {text after : List Char} :
    run property (text ++ after) = text.length ↔
      text.all property = true ∧ ∀ c ∈ after.head?, property c = false := by
  refine ⟨fun ends => ?_, fun stops => run_append stops.1 stops.2⟩
  induction text with
  | nil =>
      refine ⟨rfl, fun c isHead => ?_⟩
      obtain ⟨after, rfl⟩ := List.head?_eq_some_iff.mp isHead
      by_contra goesOn
      simp [run, goesOn] at ends
  | cons first text ih =>
      cases holds : property first with
      | false => simp [run, holds] at ends
      | true =>
          rw [List.cons_append, run, List.takeWhile_cons, holds] at ends
          simpa [holds] using ih (by simpa [run] using ends)

/-- What may follow a lexeme instead of the text that follows it: something that starts with the
same character, or, unless it is a slash, with a blank or another slash. -/
def Replaces (kind : TokenKind) (after other : List Char) : Prop :=
  other.head? = after.head? ∨ kind ≠ .slash ∧ ∀ c ∈ other.head?, c ∈ enders

theorem Replaces.ne {kind : TokenKind} {after other : List Char}
    (replaces : Replaces kind after other) {c : Char} (isOther : after.head? ≠ some c)
    (noEnd : c ∉ enders) :
    other.head? ≠ some c := by
  rcases replaces with same | ⟨-, ends⟩
  · rwa [same]
  · intro isHead
    exact noEnd (ends c isHead)

theorem Replaces.stops {kind : TokenKind} {after other : List Char}
    (replaces : Replaces kind after other) {property : Char → Bool}
    (stops : ∀ c ∈ after.head?, property c = false)
    (ends : ∀ c ∈ enders, property c = false) :
    ∀ c ∈ other.head?, property c = false := by
  intro c isHead
  rcases replaces with same | ⟨-, all⟩
  · exact stops c (same ▸ isHead)
  · exact ends c (all c isHead)

/-- A second character that makes a pair of the first belongs to the lexeme, or is missing behind
it. -/
theorem pair_before {c : Char} {pair single kind : TokenKind} {rest after other : List Char}
    (classified : (if (rest ++ after).head? = some c then (pair, 1) else (single, 0)) =
      (kind, rest.length))
    (apart : kind = single → after.head? ≠ some c → other.head? ≠ some c) :
    (if (rest ++ other).head? = some c then (pair, 1) else (single, 0)) =
      (kind, rest.length) := by
  split at classified
  · rename_i paired
    obtain ⟨second, rfl⟩ := List.length_eq_one_iff.mp (Prod.mk.inj classified).2.symm
    rw [← classified]
    exact if_pos paired
  · rename_i missing
    obtain rfl := List.length_eq_zero_iff.mp (Prod.mk.inj classified).2.symm
    rw [← classified]
    exact if_neg (apart (Prod.mk.inj classified).1.symm missing)

/-- The same where both are operators. -/
theorem operator_before {kind : TokenKind} {rest after other : List Char}
    (classified : (TokenKind.operator, if (rest ++ after).head? = some '=' then 1 else 0) =
      (kind, rest.length))
    (replaces : Replaces kind after other) :
    (TokenKind.operator, if (rest ++ other).head? = some '=' then 1 else 0) =
      (kind, rest.length) := by
  have pair : ∀ text : List Char,
      (TokenKind.operator, if text.head? = some '=' then 1 else 0) =
        if text.head? = some '=' then (TokenKind.operator, 1) else (TokenKind.operator, 0) := by
    intro text
    split <;> rfl
  rw [pair] at classified ⊢
  exact pair_before classified fun _ missing => replaces.ne missing (by decide)

theorem Replaces.digits {kind : TokenKind} {text after other : List Char}
    (replaces : Replaces kind after other)
    (whole : run Char.isDigit (text ++ after) = text.length) :
    run Char.isDigit (text ++ other) = text.length := by
  obtain ⟨digits, stops⟩ := run_append_iff.mp whole
  have ends := replaces.stops stops fun c ender => (goesOn_of_mem_enders c ender).2
  exact run_append_iff.mpr ⟨digits, ends⟩

theorem dot_before {kind : TokenKind} {rest after other : List Char}
    (classified : classify '.' (rest ++ after) = (kind, rest.length))
    (replaces : Replaces kind after other) :
    classify '.' (rest ++ other) = (kind, rest.length) := by
  rw [classify] at classified ⊢
  by_cases paired : (rest ++ after).head? = some '.'
  · rw [if_pos paired] at classified
    obtain ⟨second, rfl⟩ := List.length_eq_one_iff.mp (Prod.mk.inj classified).2.symm
    rw [← classified]
    exact if_pos paired
  · rw [if_neg paired] at classified
    have notPaired : (rest ++ other).head? ≠ some '.' := by
      cases rest with
      | nil => exact replaces.ne paired (by decide)
      | cons digit rest => exact paired
    rw [if_neg notPaired]
    split at classified
    · rename_i noDigit
      obtain rfl := List.length_eq_zero_iff.mp (Prod.mk.inj classified).2.symm
      rw [← classified]
      exact if_pos (replaces.digits noDigit)
    · rename_i someDigit
      have whole := (Prod.mk.inj classified).2
      have stays := replaces.digits whole
      rw [if_neg (by rwa [stays, ← whole]), stays]
      rw [← classified, whole]

theorem run_le_wholeNumber (text : List Char) : run Char.isDigit text ≤ wholeNumber text := by
  rw [wholeNumber]
  split
  · exact Nat.le_trans (Nat.le_add_right _ _) (Nat.le_add_right _ _)
  · exact Nat.le_refl _

/-- Digits alone are a whole number if neither a digit nor a dot follows. -/
theorem wholeNumber_digits {whole after : List Char} (digits : whole.all Char.isDigit = true)
    (stops : ∀ c ∈ after.head?, c.isDigit = false) (noDot : after.head? ≠ some '.') :
    wholeNumber (whole ++ after) = whole.length := by
  rw [wholeNumber, run_append digits stops, List.drop_left]
  split
  · exact absurd rfl noDot
  · rfl

/-- A dot behind digits belongs to the number, and so do the digits behind the dot. -/
theorem wholeNumber_dot {whole : List Char} (digits : whole.all Char.isDigit = true)
    (fraction : List Char) :
    wholeNumber (whole ++ '.' :: fraction) = whole.length + 1 + run Char.isDigit fraction := by
  have stops : ∀ c ∈ ('.' :: fraction).head?, c.isDigit = false := by
    rintro _ ⟨rfl⟩
    rfl
  rw [wholeNumber, run_append digits stops, List.drop_left]
  rfl

/-- A number that ends where its text does ends there in front of other texts as well. -/
theorem wholeNumber_before {kind : TokenKind} {rest after other : List Char}
    (isNumber : wholeNumber (rest ++ after) = rest.length) (replaces : Replaces kind after other) :
    wholeNumber (rest ++ other) = rest.length := by
  obtain ⟨whole, tail, rfl, digits, stops⟩ : ∃ whole tail, rest = whole ++ tail ∧
      whole.all Char.isDigit = true ∧ ∀ c ∈ tail.head?, c.isDigit = false := by
    refine ⟨rest.takeWhile Char.isDigit, rest.dropWhile Char.isDigit,
      List.takeWhile_append_dropWhile.symm, List.all_takeWhile, fun c isHead => ?_⟩
    have notDigit := List.head?_dropWhile_not Char.isDigit rest
    rwa [Option.mem_def.mp isHead] at notDigit
  cases tail with
  | nil =>
      -- Digits alone: neither a digit nor a dot may follow.
      rw [List.append_nil] at isNumber ⊢
      have atMost : run Char.isDigit (whole ++ after) ≤ whole.length :=
        isNumber ▸ run_le_wholeNumber _
      have atLeast := length_le_run digits after
      have ends := (run_append_iff.mp (Nat.le_antisymm atMost atLeast)).2
      have noDot : after.head? ≠ some '.' := by
        intro isDot
        obtain ⟨fraction, rfl⟩ := List.head?_eq_some_iff.mp isDot
        rw [wholeNumber_dot digits] at isNumber
        omega
      exact wholeNumber_digits digits
        (replaces.stops ends fun c ender => (goesOn_of_mem_enders c ender).2)
        (replaces.ne noDot (by decide))
  | cons next fraction =>
      rw [List.append_assoc, List.cons_append] at isNumber ⊢
      rw [List.length_append, List.length_cons] at isNumber ⊢
      by_cases isDot : next = '.'
      · subst isDot
        rw [wholeNumber_dot digits] at isNumber ⊢
        have ends : run Char.isDigit (fraction ++ after) = fraction.length := by omega
        rw [replaces.digits ends]
        omega
      · have notDigit : ∀ c ∈ (next :: (fraction ++ after)).head?, c.isDigit = false := stops
        rw [wholeNumber_digits digits notDigit (by simpa using isDot)] at isNumber
        omega

/-- A lexeme other than blanks and garbage stays what it is in front of other texts. -/
theorem Lexeme.Fits.before {lexeme : Lexeme} {after other : List Char}
    (fits : lexeme.Fits after) (notBlank : lexeme.kind.isTrivia = false)
    (notGarbage : lexeme.kind ≠ .garbage) (replaces : Replaces lexeme.kind after other)
    (apart : lexeme.kind = .stringLiteral → other.head? ≠ lexeme.text.head?) :
    lexeme.Fits other := by
  obtain ⟨first, rest, isText, classified⟩ := fits
  obtain ⟨kind, text⟩ := lexeme
  dsimp only at *
  refine ⟨first, rest, isText, ?_⟩
  unfold classify at classified ⊢
  split at classified
  -- Characters that are tokens by themselves.
  case h_1 | h_2 | h_3 | h_4 | h_5 | h_6 | h_7 | h_8 => exact classified
  case h_9 | h_10 | h_11 | h_12 | h_13 => exact classified
  -- Operators of one or two characters.
  case h_14 | h_15 => exact operator_before classified replaces
  case h_16 =>
    exact pair_before classified fun isGarbage => absurd isGarbage notGarbage
  -- `:` and `::`.
  case h_17 => exact pair_before classified fun _ missing => replaces.ne missing (by decide)
  -- `/` and `//`: here the second slash may not come from another token.
  case h_18 =>
    refine pair_before classified fun isSlash missing => ?_
    rcases replaces with same | ⟨notSlash, -⟩
    · rwa [same]
    · exact absurd isSlash notSlash
  case h_19 => exact dot_before classified replaces
  -- Strings.
  case h_20 | h_21 =>
    split at classified
    · rename_i length closed
      obtain ⟨rfl, rfl⟩ := Prod.mk.inj classified
      rw [closing?_before (by simpa [isText] using apart rfl) rest closed]
    · exact absurd (Prod.mk.inj classified).1.symm notGarbage
  -- Numbers and names.
  case h_22 =>
    split at classified
    · rw [← (Prod.mk.inj classified).1] at notBlank
      cases notBlank
    split at classified
    · rename_i notSpace digit
      obtain ⟨rfl, isNumber⟩ := Prod.mk.inj classified
      rw [if_neg notSpace, if_pos digit, wholeNumber_before isNumber replaces]
    split at classified
    · rename_i notSpace notDigit starts
      obtain ⟨rfl, whole⟩ := Prod.mk.inj classified
      obtain ⟨parts, stops⟩ := run_append_iff.mp whole
      have nameEnds := replaces.stops stops fun c ender => (goesOn_of_mem_enders c ender).1
      rw [if_neg notSpace, if_neg notDigit, if_pos starts, run_append parts nameEnds]
    · exact absurd (Prod.mk.inj classified).1.symm notGarbage

/-! ## How lexemes start -/

/-- The characters with which lexemes of a kind start, where some other token stands or falls with
them. -/
def Starts (c : Char) : TokenKind → Prop
  | .whitespace => isSpace c = true
  | .slash | .doubleSlash => c = '/'
  | .stringLiteral => c = '"' ∨ c = '\''
  | _ => True

theorem starts_classify (first : Char) (rest : List Char) :
    Starts first (classify first rest).1 := by
  unfold classify
  split
  case h_18 => split <;> rfl
  case h_20 | h_21 => split <;> simp [Starts]
  case h_22 =>
    split
    · assumption
    · split
      · trivial
      · split <;> trivial
  case h_19 =>
    split
    · trivial
    · split <;> trivial
  case h_16 | h_17 => split <;> trivial
  all_goals trivial

theorem Lexeme.Fits.starts {lexeme : Lexeme} {after : List Char} (fits : lexeme.Fits after) :
    ∀ c ∈ lexeme.text.head?, Starts c lexeme.kind := by
  obtain ⟨first, rest, isText, classified⟩ := fits
  intro c isHead
  obtain rfl : first = c := by simpa [isText] using isHead
  have starts := starts_classify first (rest ++ after)
  rwa [classified] at starts

/-- A separator or a blank starts with a character that ends the token in front of it. -/
theorem Lexeme.Fits.head_mem_enders {lexeme : Lexeme} {after : List Char}
    (fits : lexeme.Fits after)
    (loose : lexeme.kind.isTrivia = true ∨ lexeme.kind.isSeparator = true) :
    ∀ c ∈ lexeme.text.head?, c ∈ enders := by
  intro c isHead
  have starts := fits.starts c isHead
  cases kind : lexeme.kind <;> rw [kind] at starts loose <;>
    simp [TokenKind.isTrivia, TokenKind.isSeparator] at loose
  case whitespace => simp_all [Starts, isSpace, enders, or_assoc]
  case slash | doubleSlash => simp_all [Starts, enders]

/-! ## Reading lexemes again -/

theorem classify_of_isSpace {first : Char} (space : isSpace first = true) (rest : List Char) :
    classify first rest = (.whitespace, run isSpace rest) := by
  simp only [isSpace, Bool.or_eq_true, decide_eq_true_eq] at space
  rcases space with ((rfl | rfl) | rfl) | rfl <;> rfl

/-- Blanks in front of a text are skipped. -/
theorem withoutBlanks_dropWhile (text : List Char) :
    withoutBlanks (text.dropWhile isSpace) = withoutBlanks text := by
  cases text with
  | nil => rfl
  | cons first rest =>
      cases space : isSpace first with
      | false => rw [List.dropWhile_cons_of_neg (by simp [space])]
      | true =>
          have dropped : (rest.takeWhile isSpace ++ rest.dropWhile isSpace).drop
              (run isSpace rest) = rest.dropWhile isSpace := List.drop_left
          rw [List.takeWhile_append_dropWhile] at dropped
          rw [List.dropWhile_cons_of_pos space,
            withoutBlanks_cons (classify_of_isSpace space rest) (by decide), dropped]
          rfl

theorem withoutBlanks_append {blanks : List Char} (space : blanks.all isSpace = true)
    (rest : List Char) : withoutBlanks (blanks ++ rest) = withoutBlanks rest := by
  rw [← withoutBlanks_dropWhile, List.dropWhile_append_of_pos (List.all_eq_true.mp space),
    withoutBlanks_dropWhile]

theorem Lexeme.Fits.isSpace {lexeme : Lexeme} {after : List Char} (fits : lexeme.Fits after)
    (trivia : lexeme.kind.isTrivia = true) : lexeme.text.all isSpace = true := by
  obtain ⟨first, rest, isText, classified⟩ := fits
  have isBlank : lexeme.kind = .whitespace := by
    cases kind : lexeme.kind <;> rw [kind] at trivia <;> first | rfl | cases trivia
  have starts := starts_classify first (rest ++ after)
  rw [classified, isBlank] at starts
  rw [classify_of_isSpace starts] at classified
  rw [isText, List.all_cons, starts, (run_append_iff.mp (Prod.mk.inj classified).2).1]
  rfl

/-- A lexeme that fits is read again. -/
theorem Lexeme.Fits.read {lexeme : Lexeme} {after : List Char} (fits : lexeme.Fits after)
    (notBlank : lexeme.kind.isTrivia = false) (notGarbage : lexeme.kind ≠ .garbage) :
    withoutBlanks (lexeme.text ++ after) = lexeme :: withoutBlanks after := by
  obtain ⟨first, rest, isText, classified⟩ := fits
  obtain ⟨kind, text⟩ := lexeme
  dsimp only at *
  rw [isText, List.cons_append, withoutBlanks_cons classified notGarbage, notBlank,
    List.take_left, List.drop_left]
  rfl

/-- What starts with a quote and is not garbage is a string. -/
theorem closing?_of_classify {quote : Char} {rest : List Char} {kind : TokenKind} {length : Nat}
    (quoted : Starts quote .stringLiteral) (classified : classify quote rest = (kind, length))
    (notGarbage : kind ≠ .garbage) : closing? quote rest = some length := by
  rcases quoted with rfl | rfl
  all_goals
    rw [classify] at classified
    split at classified
    · rename_i further closed
      rw [closed, (Prod.mk.inj classified).2]
    · exact absurd (Prod.mk.inj classified).1.symm notGarbage

/-- A string is not followed by another one in the same quotes. -/
theorem Lexeme.Fits.apart {lexeme next : Lexeme} {after : List Char}
    (fits : lexeme.Fits (next.text ++ after)) (isString : lexeme.kind = .stringLiteral)
    (nextFits : next.Fits after) (notGarbage : next.kind ≠ .garbage) :
    next.text.head? ≠ lexeme.text.head? := by
  obtain ⟨quote, rest, isText, classified⟩ := fits
  obtain ⟨other, more, isNext, nextClassified⟩ := nextFits
  have quoted : Starts quote .stringLiteral := by
    have starts := starts_classify quote (rest ++ (next.text ++ after))
    rwa [classified, isString] at starts
  rw [isText, isNext]
  rintro ⟨rfl⟩
  have ends := closing?_of_classify quoted classified (by rw [isString]; decide)
  have goesOn := closing?_of_classify quoted nextClassified notGarbage
  rw [isNext, List.cons_append] at ends
  rw [closing?_open rest ends] at goesOn
  cases goesOn

end Token

end PathCover
