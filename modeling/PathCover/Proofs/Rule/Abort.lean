import PathCover.Proofs.Rule.Lookup
import PathCover.Proofs.Tree.Exhaustion

/-!
# Patterns that are nested too deep

A pattern that cannot be read is skipped, unless its reader gets stuck.  Then every search that
comes to the rule ends there without an answer.  Under the standard limits this is what happens to
all patterns that nest deeper than they allow.
-/

namespace PathCover

open Token (NestsWithin)

theorem Path.ofText_stuck {text : String}
    (isStuck : ParsedPath.parse .standard text = .error .stuck) :
    Path.ofText text = .error (.failure .stuck) := by
  rw [Path.ofText, isStuck]
  rfl

theorem Rule.compile_stuck {rule : Rule}
    (isStuck : Path.ofText rule.patternText = .error (.failure .stuck)) :
    rule.compile.value = .error (.failure .stuck) := by
  rw [compile, Logged.value_bind, Path.value_ofTextLogged, isStuck]
  rfl

namespace PatternCache

variable {cache : PatternCache} {index : Nat} {rule : Rule}

theorem getOrCompile_stuck (unread : cache.get? index = none)
    (isStuck : Path.ofText rule.patternText = .error (.failure .stuck)) :
    (cache.getOrCompile index rule).value = (.error (.failure .stuck), cache) := by
  rw [getOrCompile, unread]
  dsimp only
  rw [Logged.value_bind, Rule.compile_stuck isStuck]
  rfl

theorem getOrCompile_unread (unread : cache.get? index = none)
    (notStuck : Path.ofText rule.patternText ≠ .error (.failure .stuck)) :
    (cache.getOrCompile index rule).value =
      (.ok rule.pattern?, cache.insert index rule.pattern?) := by
  rw [getOrCompile, unread]
  dsimp only
  rw [Logged.value_bind, Rule.compile_of_ne_stuck notStuck]
  rfl

end PatternCache

namespace Matcher

/-- A search for all rules that cover a candidate does not get past a pattern on which the reader
gets stuck, unless what came of that pattern is remembered. -/
theorem scan_stuck {candidate : Candidate} (isAbsolute : candidate.path.isAbsolute = true)
    {rules : List Rule} {index : Nat} {cache : PatternCache}
    (unread : ∀ place, index ≤ place → cache.get? place = none)
    (someStuck : ∃ rule ∈ rules, Path.ofText rule.patternText = .error (.failure .stuck)) :
    (scan candidate false rules index cache).value.1 = .error (.failure .stuck) := by
  induction rules generalizing index cache with
  | nil =>
      obtain ⟨rule, isRule, _⟩ := someStuck
      cases isRule
  | cons rule rest ih =>
      have unreadHere := unread index (Nat.le_refl _)
      by_cases isStuck : Path.ofText rule.patternText = .error (.failure .stuck)
      · rw [scan, Logged.value_bind, PatternCache.getOrCompile_stuck unreadHere isStuck]
        rfl
      have unreadLater : ∀ place, index + 1 ≤ place →
          (cache.insert index rule.pattern?).get? place = none := by
        intro place behind
        rw [PatternCache.get?_insert, if_neg (Nat.ne_of_lt behind)]
        exact unread place (Nat.le_of_lt behind)
      have laterStuck : ∃ rule ∈ rest,
          Path.ofText rule.patternText = .error (.failure .stuck) := by
        obtain ⟨other, isOther, otherStuck⟩ := someStuck
        cases isOther with
        | head => exact absurd otherStuck isStuck
        | tail _ isLater => exact ⟨other, isLater, otherStuck⟩
      have later := ih unreadLater laterStuck
      rw [scan, Logged.value_bind, PatternCache.getOrCompile_unread unreadHere isStuck]
      dsimp only
      cases isPattern : rule.pattern? with
      | none =>
          rw [isPattern] at later
          exact later
      | some pattern =>
          have verdict := check_pattern isAbsolute isPattern
          rw [isPattern] at later
          dsimp only
          rw [Logged.value_bind, checkLogged_value, verdict]
          cases (Coverage.walk candidate.path pattern).covered with
          | false => exact later
          | true =>
              dsimp only
              rw [Logged.value_bind, if_neg Bool.false_ne_true, Logged.value_bind,
                Logged.value_pure, later]
              rfl

theorem matching_stuck {rules : RuleSet} {element name : String} {path : Path}
    (isPath : Path.ofText (candidateText element name) = .ok path)
    (isAbsolute : path.isAbsolute = true)
    (someStuck : ∃ rule ∈ rules, Path.ofText rule.patternText = .error (.failure .stuck)) :
    ((ofRules rules).matching element name).value.1 = .error (.failure .stuck) := by
  have unread : ∀ place, 0 ≤ place → PatternCache.empty.get? place = none := by
    intro place _
    rfl
  have stopped : (scan (attributeOf element name path) false rules 0 .empty).value.1 =
      .error (.failure .stuck) := scan_stuck isAbsolute unread someStuck
  rw [matching, lookUp, Logged.value_bind, candidateOf_absolute isPath isAbsolute]
  exact stopped

/-- How deep groups may nest decides what becomes of a text.  Where the limit allows at most 83, or
the text nests no more parentheses and no more brackets, it is read or hits a limit, and it hits the
depth limit where its groups nest deeper.  Where the limit allows 128 or more, the reader gets stuck
on every text whose groups nest deeper.  So a matcher, which allows 4096, skips no rule for its
depth: no search for all rules gets past it. -/
theorem patience_of_nested (limits : Tree.Limits) (text : String) :
    ((∃ depth ≤ 83, limits.depth = some depth) ∨ NestsWithin 83 text →
      (∃ parsed, ParsedPath.parse limits text = .ok parsed) ∨
        ∃ limit, ParsedPath.parse limits text = .error (.limit limit)) ∧
    (∀ depth, limits.depth = some depth →
      limits.AdmitsTokens (Token.significant text).length → depth < Tree.nesting text →
        (depth ≤ 83 → ParsedPath.parse limits text = .error (.limit .depth)) ∧
        (128 ≤ depth → ParsedPath.parse limits text = .error .stuck)) ∧
    ∀ (rules : RuleSet), ∀ rule ∈ rules, rule.patternText = text →
      (NestsWithin 83 text → rule.compile.value = .ok rule.pattern?) ∧
      ((Token.significant text).length ≤ 1000000 → 4096 < Tree.nesting text →
        ∀ element name path, Path.ofText (candidateText element name) = .ok path →
          path.isAbsolute = true →
          ((ofRules rules).matching element name).value.1 = .error (.failure .stuck)) := by
  refine ⟨?_, ?_, ?_⟩
  · intro shallow
    have notStuck := Tree.parse_ne_stuck limits text shallow
    cases isParsed : ParsedPath.parse limits text with
    | ok parsed => exact .inl ⟨parsed, rfl⟩
    | error failure =>
        cases failure with
        | limit limit => exact .inr ⟨limit, rfl⟩
        | stuck => exact absurd (ParsedPath.parse_eq_error.mp isParsed) notStuck
  · intro depth isLimit tokens deeper
    constructor
    · intro few
      exact ParsedPath.parse_eq_error.mpr (Tree.parse_refused isLimit few tokens deeper)
    · intro many
      exact ParsedPath.parse_eq_error.mpr (Tree.parse_stuck isLimit many tokens deeper)
  · rintro rules rule isRule rfl
    constructor
    · intro shallow
      exact rule.compile_of_ne_stuck (Path.ofText_ne_stuck_of_nests shallow)
    · intro few deeper element name path isPath isAbsolute
      apply matching_stuck isPath isAbsolute
      have tokens : Tree.Limits.standard.AdmitsTokens
          (Token.significant rule.patternText).length := by
        intro most isMost
        cases isMost
        exact few
      have isStuck : Tree.parse .standard rule.patternText = .error .stuck :=
        Tree.parse_stuck rfl (by decide) tokens deeper
      exact ⟨rule, isRule, Path.ofText_stuck (ParsedPath.parse_eq_error.mpr isStuck)⟩

/-- A path whose predicates are opened and never closed. -/
def unclosed (count : Nat) : String := String.ofList ('/' :: 'a' :: List.replicate count '[')

theorem nesting_unclosed : 128 < Tree.nesting (unclosed 129) := by
  decide +kernel

theorem patience_of_nested_unclosed :
    ParsedPath.parse ⟨none, some 2⟩ (unclosed 3) = .error (.limit .depth) ∧
    ParsedPath.parse ⟨none, some 128⟩ (unclosed 129) = .error .stuck ∧
    (⟨[], "/a", "b[c[1]]", none, none⟩ : Rule).compile.value =
      .ok (⟨[], "/a", "b[c[1]]", none, none⟩ : Rule).pattern? := by
  have unlimited : ∀ depth text, Tree.Limits.AdmitsTokens ⟨none, some depth⟩
      (Token.significant text).length := by
    intro depth text most isMost
    cases isMost
  refine ⟨?_, ?_, ?_⟩
  · exact ((patience_of_nested ⟨none, some 2⟩ (unclosed 3)).2.1 2 rfl (unlimited _ _)
      (by decide +kernel)).1 (by decide)
  · exact ((patience_of_nested ⟨none, some 128⟩ (unclosed 129)).2.1 128 rfl (unlimited _ _)
      nesting_unclosed).2 (by decide)
  · exact ((patience_of_nested .standard "/a/b[c[1]]").2.2 [_] _ (.head _) (by rfl)).1
      (by decide +kernel)

/-- Not every text is read or hits a limit: under the standard limits a path that opens 128
predicates and closes none does neither.  Nor is every text that nests too deep refused for it. -/
theorem stuck_of_unclosed :
    ((∀ parsed, ParsedPath.parse .standard (unclosed 128) ≠ .ok parsed) ∧
      ∀ limit, ParsedPath.parse .standard (unclosed 128) ≠ .error (.limit limit)) ∧
    128 < Tree.nesting (unclosed 129) ∧
      ParsedPath.parse ⟨none, some 128⟩ (unclosed 129) ≠ .error (.limit .depth) := by
  have standardStuck : ParsedPath.parse .standard (unclosed 128) = .error .stuck := by
    apply ParsedPath.parse_eq_error.mpr
    rw [Tree.parse_eq, Tree.outcome]
    exact if_pos (by decide +kernel)
  have isStuck : ParsedPath.parse ⟨none, some 128⟩ (unclosed 129) = .error .stuck := by
    apply ParsedPath.parse_eq_error.mpr
    apply Tree.parse_stuck rfl (Nat.le_refl 128) _ nesting_unclosed
    intro most isMost
    cases isMost
  rw [standardStuck, isStuck]
  simpa using nesting_unclosed

end Matcher

end PathCover
