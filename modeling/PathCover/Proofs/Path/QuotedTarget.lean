import PathCover.Proofs.Path.RoundTrip
import PathCover.Proofs.Tree.Predicates

/-!
# Quoted targets of processing instructions

Between quotes every text can be the target of a processing instruction, if each quote in it is
written twice.  The lexer finds the quote that ends the literal behind all the doubled ones, and the
literal stands for the text that was quoted.
-/

namespace PathCover

/-! ## Literals -/

namespace Token

/-- A text in which each quote is written twice. -/
def doubled (quote : Char) (text : List Char) : List Char :=
  text.flatMap fun c => if c = quote then [quote, quote] else [c]

/-- The literal of a text between two quotes. -/
def literal (quote : Char) (text : List Char) : List Char :=
  quote :: (doubled quote text ++ [quote])

theorem doubled_quote (quote : Char) (text : List Char) :
    doubled quote (quote :: text) = quote :: quote :: doubled quote text := by
  rw [doubled, List.flatMap_cons, if_pos rfl]
  rfl

theorem doubled_other {quote c : Char} (other : c ≠ quote) (text : List Char) :
    doubled quote (c :: text) = c :: doubled quote text := by
  rw [doubled, List.flatMap_cons, if_neg other]
  rfl

/-- A literal is closed by its last quote, unless another one follows. -/
theorem closing?_doubled {quote : Char} {after : List Char} (apart : after.head? ≠ some quote)
    (text : List Char) :
    closing? quote (doubled quote text ++ quote :: after) =
      some ((doubled quote text).length + 1) := by
  induction text with
  | nil =>
      cases after with
      | nil => simp [doubled, closing?]
      | cons next after =>
          have notDoubled : next ≠ quote := by simpa using apart
          simp [doubled, closing?, notDoubled]
  | cons c text ih =>
      by_cases isQuote : c = quote
      · rw [isQuote, doubled_quote, List.cons_append, List.cons_append, closing?, if_pos rfl,
          if_pos rfl, ih]
        rfl
      · rw [doubled_other isQuote, List.cons_append]
        cases rest : doubled quote text ++ quote :: after with
        | nil => simp at rest
        | cons second rest' =>
            rw [closing?, if_neg isQuote, ← rest, ih]
            rfl

/-- A literal is one token in front of everything but its own quote. -/
theorem spells_literal {quote : Char} (isQuote : quote = '"' ∨ quote = '\'') (text : List Char) :
    Spells (literal quote text) [⟨.stringLiteral, literal quote text⟩] (· ≠ quote) := by
  intro after stops
  have apart : after.head? ≠ some quote := fun isHead => stops quote isHead rfl
  have closed := closing?_doubled apart text
  have classified : classify quote (doubled quote text ++ quote :: after) =
      (.stringLiteral, (doubled quote text).length + 1) := by
    rcases isQuote with rfl | rfl <;> simp only [classify, closed]
  have split : doubled quote text ++ quote :: after = (doubled quote text ++ [quote]) ++ after := by
    simp
  have length : (doubled quote text).length + 1 = (doubled quote text ++ [quote]).length := by
    simp
  rw [split, length] at classified
  rw [literal, List.cons_append, withoutBlanks_cons classified (by decide), List.take_left,
    List.drop_left]
  rfl

end Token

namespace Tree

/-- Reading doubled quotes as one undoes the doubling. -/
theorem collapse_doubled (quote : Char) (text : List Char) :
    collapse quote (Token.doubled quote text) = text := by
  induction text with
  | nil => rfl
  | cons c text ih =>
      by_cases isQuote : c = quote
      · rw [isQuote, Token.doubled_quote, collapse, if_pos ⟨rfl, rfl⟩, ih]
      · rw [Token.doubled_other isQuote]
        cases rest : Token.doubled quote text with
        | nil =>
            rw [rest] at ih
            rw [collapse, ← ih]
            rfl
        | cons second rest' =>
            rw [collapse, if_neg (fun both => isQuote both.1), ← rest, ih]

/-- A literal stands for the text between its quotes. -/
theorem unquote_literal (quote : Char) (text : List Char) :
    unquote (String.ofList (Token.literal quote text)) = String.ofList text := by
  rw [unquote, String.toList_ofList, Token.literal]
  dsimp only
  rw [List.dropLast_concat, collapse_doubled]

end Tree

/-! ## Targets -/

/-- The text of the child step from the root to the processing instructions with a target, which is
quoted. -/
def instructionText (quote : Char) (target : String) : String :=
  "/processing-instruction(" ++ String.ofList (Token.literal quote target.toList) ++ ")"

/-- The slash in front of the keyword. -/
theorem toList_instruction (inner : String) :
    ("/processing-instruction(" ++ inner ++ ")").toList =
      Depth.child.render.toList ++ ("processing-instruction(" ++ inner ++ ")").toList := by
  have front : Depth.child.render.toList ++ "processing-instruction(".toList =
      "/processing-instruction(".toList := by decide
  rw [String.toList_append, String.toList_append, String.toList_append, String.toList_append,
    ← front]
  simp only [List.append_assoc]

/-- Such a text derives from the grammar with a single literal as argument, and it denotes the path
with the target. -/
theorem instructionText_written {quote : Char} (isQuote : quote = '"' ∨ quote = '\'')
    (target : String) :
    ∃ (slash : Grammar.Separator) (test : Grammar.KindTest) (literal : Grammar.Sign .stringLiteral),
      test.arguments = [.literal literal] ∧
      (Grammar.Path.steps (some slash) ⟨.tested none (.kind test), []⟩ []).lexemes =
        Token.significant (instructionText quote target) ∧
      (Grammar.Path.steps (some slash) ⟨.tested none (.kind test), []⟩ []).Denotes
        [.separator .child, .axis ⟨.child, .kind (.processingInstruction (some target))⟩] := by
  let literal : Grammar.Sign .stringLiteral :=
    ⟨⟨.stringLiteral, Token.literal quote target.toList⟩, rfl⟩
  have spells : Token.Spells (String.ofList (Token.literal quote target.toList)).toList
      (Grammar.Argument.lexemesOf [.literal literal]) (· = ')') := by
    rw [String.toList_ofList]
    refine (Token.spells_literal isQuote target.toList).mono ?_
    rintro _ rfl
    rcases isQuote with rfl | rfl <;> decide
  obtain ⟨test, keyword, given, writes⟩ := kindTest_written "processing-instruction"
    (show "processing-instruction(".toList = _ by decide) (by decide) spells
  obtain ⟨slash, isChild, separated⟩ := Depth.child.written
  refine ⟨slash, test, literal, given, ?_, ?_⟩
  · have whole := separated (writes.mono fun _ _ => trivial)
    rw [← toList_instruction] at whole
    refine Eq.trans ?_ (Path.significant_of_spells whole)
    simp [Grammar.Path.lexemes, Grammar.Step.lexemes, Grammar.StepBody.lexemes,
      Grammar.NodeTest.lexemes]
  · have meaning : test.Denotes (.processingInstruction (some target)) := by
      refine .processingInstruction keyword ?_
      have read := Grammar.Target.literal literal
      rwa [Grammar.Terminal.text, Tree.unquote_literal, String.ofList_toList, ← given] at read
    have denotes := Grammar.Path.Denotes.steps (some slash)
      (show Grammar.Step.Denotes ⟨.tested none (.kind test), []⟩ _ from .implied (.kind meaning))
      .nil
    rwa [Option.map_some, isChild] at denotes

/-- A kind test around a single literal holds no other group. -/
theorem Tree.KindTest.Shows.nesting_literal {given : Tree.KindTest} {test : Grammar.KindTest}
    {literal : Grammar.Sign .stringLiteral} (shown : given.Shows test)
    (only : test.arguments = [.literal literal]) :
    Tree.Element.nestingOf given.elements = 1 := by
  obtain ⟨keyword, opener, _, closer⟩ := test
  obtain ⟨lead, givenKeyword, givenOpener, arguments, givenCloser⟩ := given
  obtain rfl : _ = [Grammar.Argument.literal literal] := only
  cases shown with
  | nested _ _ shownArguments _ =>
      cases shownArguments with
      | cons first rest =>
          cases rest
          cases first
          simp [Tree.KindTest.nestingOf_elements]

/-- The only group of such a text is its kind test. -/
theorem nesting_of_literal {text : String} {slash : Grammar.Separator}
    {test : Grammar.KindTest} {literal : Grammar.Sign .stringLiteral}
    (only : test.arguments = [.literal literal])
    (derives : (Grammar.Path.steps (some slash) ⟨.tested none (.kind test), []⟩ []).lexemes =
      Token.significant text) :
    Tree.nesting text = 1 := by
  obtain ⟨-, tree, -, shown⟩ := Tree.readText_complete derives
  rw [Tree.nesting_of_derives derives (by simp [Grammar.Path.allSteps]) shown]
  generalize tree.parts = parts at shown
  cases shown with
  | @absolute leaf _ step _ _ _ _ shown rest =>
      cases rest
      obtain ⟨lead, start, body, predicates⟩ := step
      obtain ⟨shownBody, noPredicates⟩ := shown
      obtain rfl : predicates = [] := List.length_eq_zero_iff.mp noPredicates
      cases shownBody with
      | plain shownTest =>
          cases shownTest with
          | kind shownKind =>
              have inner := shownKind.nesting_literal only
              simpa [Tree.PathPart.elements, Tree.Step.elements, Tree.Step.element,
                Tree.StepBody.elements, Tree.NodeTest.elements, Tree.optionElements,
                NodeKind.isGroup] using inner

/-- A quoted target is read back exactly, whatever it is and whichever quote stands around it.  The
five tokens of the text have to be admitted by the limits, and one group. -/
theorem target_read_back (limits : Tree.Limits) (tokens : limits.AdmitsTokens 5)
    (depth : limits.AdmitsDepth 1) (quote : Char) (isQuote : quote = '"' ∨ quote = '\'')
    (target : String) :
    ∃ parsed, ParsedPath.parse limits (instructionText quote target) = .ok parsed ∧
      parsed.isValid = true ∧ parsed.report = [] ∧
      parsed.path =
        [.separator .child, .axis ⟨.child, .kind (.processingInstruction (some target))⟩] := by
  obtain ⟨slash, test, literal, given, derives, denotes⟩ := instructionText_written isQuote target
  obtain ⟨free, isFree, isPath, ignored, sameLength, report⟩ :=
    ParsedPath.parse_of_denotes derives denotes
  obtain rfl : ignored = [] := List.length_eq_zero_iff.mp sameLength
  have admits : limits.Admits (instructionText quote target) := by
    constructor
    · rw [← derives]
      exact tokens.mono (by simp [Grammar.Path.lexemes, Grammar.Step.lexemes, given,
        Grammar.StepBody.lexemes, Grammar.NodeTest.lexemes, Grammar.KindTest.lexemes,
        Grammar.KindTest.argument, Grammar.Argument.lexemes, Grammar.Argument.lexemesOf])
    · rw [nesting_of_literal given derives]
      exact depth
  refine ⟨free.counted limits,
    ParsedPath.parse_eq_counted.mpr ⟨admits, free, isFree, rfl⟩, ?_, report, isPath⟩
  rw [ParsedPath.isValid, ParsedPath.counted, report]
  rfl

/-- A target with brackets, slashes, a line break and both quotes, some of them in a row -/
theorem target_read_back_quotes :
    let target := "'it''s\n//[\"])'"
    Tree.Limits.standard.AdmitsTokens 5 ∧ Tree.Limits.standard.AdmitsDepth 1 ∧
      instructionText '\'' target = "/processing-instruction('''it''''s\n//[\"])''')" ∧
      ∃ parsed, ParsedPath.parse .standard (instructionText '\'' target) = .ok parsed ∧
        parsed.isValid = true ∧ parsed.report = [] ∧
        parsed.path =
          [.separator .child, .axis ⟨.child, .kind (.processingInstruction (some target))⟩] := by
  intro target
  have tokens : Tree.Limits.standard.AdmitsTokens 5 := by
    rintro _ ⟨rfl⟩
    decide
  have depth : Tree.Limits.standard.AdmitsDepth 1 := by
    rintro _ ⟨rfl⟩
    decide
  exact ⟨tokens, depth, by decide, target_read_back .standard tokens depth '\'' (.inr rfl) target⟩

end PathCover
