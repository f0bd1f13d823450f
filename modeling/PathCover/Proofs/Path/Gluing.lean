import PathCover.Proofs.Path.Shape
import PathCover.Proofs.Tree.Plain
import PathCover.Rule.Matcher

/-!
# Paths from texts with a `/` between them

Two texts with a `/` between them are split into tokens where they were before, and the path of the
whole is the path of the first followed by that of the second.  This holds unless the `/` joins
another one: the first text may not be a `/` alone, and the second may not start with a separator.
The candidates and the patterns of rules are such texts.
-/

namespace PathCover

/-! ## Tokens -/

namespace Token

theorem Lexeme.Fits.head?_append {lexeme : Lexeme} {after : List Char} (fits : lexeme.Fits after)
    (other : List Char) : (lexeme.text ++ other).head? = lexeme.text.head? := by
  obtain ⟨first, rest, isText, -⟩ := fits
  rw [isText]
  rfl

/-- A lexeme that is no `/` in front of the end still fits if a `/` comes behind the others. -/
theorem Fitting.fits_slash {part : Lexeme} {behind : List Lexeme}
    (fitting : Fitting (part :: behind)) (notBlank : part.kind.isTrivia = false)
    (noGarbage : ∀ other ∈ part :: behind, other.kind ≠ .garbage)
    (noSlash : behind = [] → part.kind ≠ .slash) (rest : List Char) :
    part.Fits (behind.flatMap Lexeme.text ++ '/' :: rest) := by
  rw [List.forall_mem_cons] at noGarbage
  have fits := fitting.1 noGarbage.1
  cases behind with
  | nil =>
      refine fits.before notBlank noGarbage.1 (.inr ⟨noSlash rfl, ?_⟩) fun isString same => ?_
      · rintro _ ⟨rfl⟩
        decide
      · have quoted := fits.starts '/' same.symm
        rw [isString] at quoted
        rcases quoted with isQuote | isQuote <;> cases isQuote
  | cons next behind =>
      have notGarbage := noGarbage.2 next List.mem_cons_self
      have nextFits := fitting.2.1 notGarbage
      rw [List.flatMap_cons] at fits
      rw [List.flatMap_cons, List.append_assoc]
      refine fits.before notBlank noGarbage.1 (.inl ?_) fun isString => ?_
      · rw [nextFits.head?_append, nextFits.head?_append]
      · rw [nextFits.head?_append]
        exact fits.apart isString nextFits notGarbage

/-- A `/` changes nothing of the lexemes in front of it, if the last of these is no `/` itself. -/
theorem Fitting.withoutBlanks_slash {parts : List Lexeme} (fitting : Fitting parts)
    (noGarbage : ∀ part ∈ parts, part.kind ≠ .garbage)
    (noSlash : ∀ last ∈ parts.getLast?, last.kind ≠ .slash) (rest : List Char) :
    withoutBlanks (parts.flatMap Lexeme.text ++ '/' :: rest) =
      parts.filter (!·.kind.isTrivia) ++ withoutBlanks ('/' :: rest) := by
  induction parts with
  | nil => rfl
  | cons part behind ih =>
      have notGarbage := noGarbage part List.mem_cons_self
      have later : withoutBlanks (behind.flatMap Lexeme.text ++ '/' :: rest) =
          behind.filter (!·.kind.isTrivia) ++ withoutBlanks ('/' :: rest) := by
        apply ih fitting.2 fun other member => noGarbage other (List.mem_cons_of_mem _ member)
        intro last isLast
        apply noSlash
        rw [List.getLast?_cons, Option.mem_def.mp isLast]
        rfl
      rw [List.flatMap_cons, List.append_assoc, List.filter_cons]
      cases trivia : part.kind.isTrivia with
      | true =>
          have blank := (fitting.1 notGarbage).isSpace trivia
          rw [withoutBlanks_append blank, later]
          rfl
      | false =>
          have fits := fitting.fits_slash trivia noGarbage
            (fun nothing => noSlash part (by rw [nothing]; rfl)) rest
          rw [fits.read trivia notGarbage, later]
          rfl

/-- The tokens of two texts with a `/` between them. -/
theorem significant_slash {front rest : String}
    (noGarbage : ∀ token ∈ lex front, token.kind ≠ .garbage)
    (noSlash : ∀ last ∈ (significant front).getLast?, last.kind ≠ .slash)
    (apart : rest.toList.head? ≠ some '/') :
    significant (front ++ "/" ++ rest) =
      significant front ++ ⟨.slash, ['/']⟩ :: significant rest := by
  have isFront : (joinGarbage (lexemes front.toList)).flatMap Lexeme.text = front.toList := by
    rw [flatMap_text_joinGarbage, flatMap_text_lexemes]
  have fitting := fitting_joinGarbage (fitting_lexemes front.toList)
  have glued := fitting.withoutBlanks_slash ?_ ?_ rest.toList
  · have alone : withoutBlanks ('/' :: rest.toList) =
        ⟨.slash, ['/']⟩ :: withoutBlanks rest.toList := by
      have classified : classify '/' rest.toList = (.slash, 0) := if_neg apart
      rw [withoutBlanks_cons classified (by decide)]
      rfl
    rw [isFront, alone] at glued
    simpa [significant_eq, withoutBlanks] using glued
  · intro part isPart
    rw [← map_lexeme_lex] at isPart
    obtain ⟨token, isToken, rfl⟩ := List.mem_map.mp isPart
    exact noGarbage token isToken
  · intro last isLast isSlash
    obtain ⟨before, split⟩ := List.getLast?_eq_some_iff.mp isLast
    apply noSlash last _ isSlash
    rw [significant_eq, withoutBlanks, split, List.filter_append, List.getLast?_append]
    simp [isSlash, TokenKind.isTrivia]

/-- A text that starts with a `/` starts with a separator. -/
theorem significant_separator {text : String} (starts : text.toList.head? = some '/') :
    ∃ depth : Depth, ∃ first ∈ (significant text).head?, first.kind = depth.tokenKind := by
  obtain ⟨rest, isText⟩ := List.head?_eq_some_iff.mp starts
  rw [significant_eq, isText]
  by_cases doubled : rest.head? = some '/'
  · have classified : classify '/' rest = (.doubleSlash, 1) := if_pos doubled
    rw [withoutBlanks_cons classified (by decide)]
    exact ⟨.descendantOrSelf, _, rfl, rfl⟩
  · have classified : classify '/' rest = (.slash, 0) := if_neg doubled
    rw [withoutBlanks_cons classified (by decide)]
    exact ⟨.child, _, rfl, rfl⟩

end Token

/-! ## Derivations -/

namespace Grammar

/-- A step does not end with a separator. -/
theorem Step.last_lexemes (step : Step) :
    ∃ last ∈ step.lexemes.getLast?, last.kind.isSeparator = false := by
  obtain ⟨body, predicates⟩ := step
  rcases List.eq_nil_or_concat predicates with rfl | ⟨earlier, predicate, rfl⟩
  · have filled := List.getLast?_eq_some_getLast body.lexemes_ne_nil
    have stands := body.standsInStep _ (List.getLast_mem body.lexemes_ne_nil)
    refine ⟨_, by simpa [Step.lexemes] using filled, ?_⟩
    rw [TokenKind.standsInStep, Bool.and_eq_true, Bool.not_eq_true'] at stands
    exact stands.2
  · obtain ⟨opener, items, closer⟩ := predicate
    refine ⟨closer.lexeme, ?_, by rw [closer.kind_eq]; rfl⟩
    rw [Step.lexemes, List.concat_eq_append, List.flatMap_append, List.flatMap_singleton,
      Predicate.lexemes, PredicateItem.lexemes, ← List.cons_append, ← List.append_assoc,
      ← List.append_assoc, List.getLast?_concat]
    rfl

theorem Step.last_append (step : Step) (front : List Token.Lexeme) :
    ∀ last ∈ (front ++ step.lexemes).getLast?, last.kind.isSeparator = false := by
  intro last isLast
  obtain ⟨own, isOwn, separates⟩ := step.last_lexemes
  rw [List.getLast?_append, Option.mem_def.mp isOwn] at isLast
  obtain rfl : own = last := Option.some.inj isLast
  exact separates

/-- A path with steps does not end with a separator. -/
theorem Path.Denotes.last_lexemes {derived : Path} {path : PathCover.Path}
    (denotes : derived.Denotes path) (notRoot : path ≠ [.separator .child]) :
    ∀ last ∈ derived.lexemes.getLast?, last.kind.isSeparator = false := by
  cases denotes with
  | root => exact absurd rfl notRoot
  | @steps first _ later _ leading =>
      rcases List.eq_nil_or_concat later with rfl | ⟨earlier, ⟨separator, step⟩, rfl⟩
      · rw [Path.lexemes, List.flatMap_nil, List.append_nil]
        exact first.last_append _
      · rw [Path.lexemes, List.concat_eq_append, List.flatMap_append, List.flatMap_singleton,
          LaterStep.lexemes, List.append_cons, ← List.append_assoc]
        exact step.last_append _

/-- The `/` between two texts. -/
def slash : Separator := ⟨⟨.slash, ['/']⟩, rfl⟩

theorem LaterDenote.append {later : List LaterStep} {path : PathCover.Path}
    (denote : LaterDenote later path) {more : List LaterStep} {rest : PathCover.Path}
    (denoteMore : LaterDenote more rest) : LaterDenote (later ++ more) (path ++ rest) := by
  induction denote with
  | nil => exact denoteMore
  | cons separator first _ ih =>
      rw [List.cons_append, List.append_assoc, List.cons_append]
      exact .cons separator first ih

/-- The derivation of a path with steps goes on behind a `/` with that of a path that starts with no
separator, and denotes the steps of both. -/
theorem Path.Denotes.join {derived other : Path} {front rest : PathCover.Path}
    (denotes : derived.Denotes front) (notRoot : front ≠ [.separator .child])
    (denotesRest : other.Denotes rest) (relative : ∀ step ∈ rest.head?, step.isSeparator = false) :
    ∃ joined : Path, joined.lexemes = derived.lexemes ++ slash.lexeme :: other.lexemes ∧
      joined.Denotes (front ++ rest) := by
  cases denotes with
  | root => exact absurd rfl notRoot
  | @steps first meaning later path leading means denote =>
      cases denotesRest with
      | root => cases relative _ rfl
      | @steps next nextMeaning more following nextLeading nextMeans denoteMore =>
          cases nextLeading with
          | some separator => cases relative _ rfl
          | none =>
              have behind : LaterDenote ((slash, next) :: more) (.axis nextMeaning :: following) :=
                .cons slash nextMeans denoteMore
              refine ⟨.steps leading first (later ++ (slash, next) :: more), ?_, ?_⟩
              · simp [Path.lexemes, LaterStep.lexemes]
              · simpa using Path.Denotes.steps leading means (denote.append behind)

end Grammar

/-! ## Texts -/

namespace Path

/-- The text is valid, without any limits, and stands for the path. -/
def ReadFrom (path : Path) (text : String) : Prop :=
  ∃ parsed, ParsedPath.parse .none text = .ok parsed ∧ parsed.isValid = true ∧ parsed.path = path

theorem readFrom_iff {path : Path} {text : String} : path.ReadFrom text ↔
    ∃ derived : Grammar.Path, derived.lexemes = Token.significant text ∧ derived.Denotes path := by
  constructor
  · rintro ⟨parsed, isParsed, valid, rfl⟩
    exact ParsedPath.denotes_of_parse isParsed valid
  · rintro ⟨derived, derives, denotes⟩
    obtain ⟨parsed, isParsed, samePath, ignored, -, report⟩ :=
      ParsedPath.parse_of_denotes derives denotes
    refine ⟨parsed, isParsed, ?_, samePath⟩
    rw [ParsedPath.isValid, Bool.not_eq_true', Report.hasErrors_eq_false, report]
    intro diagnostic member
    obtain ⟨predicate, -, rfl⟩ := List.mem_map.mp member
    rfl

/-- A text that stands for a path without a leading separator does not start with a `/`. -/
theorem ReadFrom.head_ne {path : Path} {text : String} (reads : path.ReadFrom text)
    (relative : ∀ step ∈ path.head?, step.isSeparator = false) :
    text.toList.head? ≠ some '/' := by
  intro starts
  obtain ⟨derived, derives, denotes⟩ := readFrom_iff.mp reads
  obtain ⟨depth, first, isFirst, kind⟩ := Token.significant_separator starts
  rw [← derives] at isFirst
  cases relative _ ((denotes.leading depth).mpr ⟨first, isFirst, kind⟩)

theorem ReadFrom.join {first second : String} {front rest : Path} (reads : front.ReadFrom first)
    (noGarbage : ∀ token ∈ Token.lex first, token.kind ≠ .garbage)
    (notRoot : front ≠ [.separator .child]) (readsRest : rest.ReadFrom second)
    (relative : ∀ step ∈ rest.head?, step.isSeparator = false) :
    (front ++ rest).ReadFrom (first ++ "/" ++ second) := by
  have apart := readsRest.head_ne relative
  obtain ⟨derived, derives, denotes⟩ := readFrom_iff.mp reads
  obtain ⟨other, derivesRest, denotesRest⟩ := readFrom_iff.mp readsRest
  obtain ⟨joined, isJoined, means⟩ := denotes.join notRoot denotesRest relative
  refine readFrom_iff.mpr ⟨joined, ?_, means⟩
  have noSlash : ∀ last ∈ (Token.significant first).getLast?, last.kind ≠ .slash := by
    intro last isLast isSlash
    rw [← derives] at isLast
    have separates := denotes.last_lexemes notRoot last isLast
    rw [isSlash] at separates
    cases separates
  rw [isJoined, derives, derivesRest, Token.significant_slash noGarbage noSlash apart]
  rfl

/-- Two texts with a `/` between them stand for the path of the first followed by that of the
second, if no garbage in the first can reach over the `/` and neither text has a separator at it.
The path of an attribute of an element and the pattern of a rule are put together in this way. -/
theorem readFrom_glued {first second : String} {front rest : Path}
    (noGarbage : ∀ token ∈ Token.lex first, token.kind ≠ .garbage)
    (reads : front.ReadFrom first) (readsRest : rest.ReadFrom second)
    (notRoot : front ≠ [.separator .child])
    (relative : ∀ step ∈ rest.head?, step.isSeparator = false) :
    (front ++ rest).ReadFrom (first ++ "/" ++ second) ∧
      (∀ name, second = "@" ++ name →
        (front ++ rest).ReadFrom (Matcher.candidateText first name)) ∧
      ∀ rule : Rule, rule.context = first → rule.target = second →
        (front ++ rest).ReadFrom rule.patternText := by
  have glued := reads.join noGarbage notRoot readsRest relative
  refine ⟨glued, ?_, ?_⟩
  · rintro name rfl
    have same : Matcher.candidateText first name = first ++ "/" ++ ("@" ++ name) := by
      rw [Matcher.candidateText, ← String.append_assoc]
      exact congrArg (· ++ name) (String.append_assoc : first ++ "/" ++ "@" = _).symm
    rw [same]
    exact glued
  · rintro rule rfl rfl
    exact glued

/-- A context with a `//` and a predicate, whose string holds a separator. -/
theorem readFrom_glued_context :
    let child (name : String) : Step := .axis ⟨.child, .name ⟨none, .named name⟩⟩
    let front : Path := [.separator .child, child "TEI", .separator .descendantOrSelf, child "p"]
    let rest : Path := [.axis ⟨.attribute, .name ⟨none, .named "n"⟩⟩]
    (∀ token ∈ Token.lex "/TEI//p[@k = '/']", token.kind ≠ .garbage) ∧
      front.ReadFrom "/TEI//p[@k = '/']" ∧ rest.ReadFrom "@n" ∧ front ≠ [.separator .child] ∧
      (∀ step ∈ rest.head?, step.isSeparator = false) ∧
      (front ++ rest).ReadFrom (Matcher.candidateText "/TEI//p[@k = '/']" "n") := by
  intro child front rest
  have noGarbage : ∀ token ∈ Token.lex "/TEI//p[@k = '/']", token.kind ≠ .garbage := by
    decide +kernel
  have reads : front.ReadFrom "/TEI//p[@k = '/']" := by
    obtain ⟨parsed, isParsed, found⟩ := ParsedPath.exists_of_toOption
      (by decide +kernel : (ParsedPath.parse .none "/TEI//p[@k = '/']").toOption.map
        (fun parsed => (parsed.isValid, parsed.path)) = some (true, front))
    exact ⟨parsed, isParsed, Prod.mk.inj found⟩
  have readsRest : rest.ReadFrom "@n" := by
    obtain ⟨parsed, isParsed, found⟩ := ParsedPath.exists_of_toOption
      (by decide +kernel : (ParsedPath.parse .none "@n").toOption.map
        (fun parsed => (parsed.isValid, parsed.path)) = some (true, rest))
    exact ⟨parsed, isParsed, Prod.mk.inj found⟩
  have notRoot : front ≠ [.separator .child] := by decide
  have relative : ∀ step ∈ rest.head?, step.isSeparator = false := by decide
  exact ⟨noGarbage, reads, readsRest, notRoot, relative,
    (readFrom_glued noGarbage reads readsRest notRoot relative).2.1 "n" rfl⟩

end Path

end PathCover
