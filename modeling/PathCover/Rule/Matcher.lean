import PathCover.Rule.Cache

/-!
# Matching rules

Which rules of a set cover an attribute, in the order of the set.  The patterns of the rules are
read when they are first needed.
-/

namespace PathCover

/-- A rule that covers an attribute. -/
structure RuleMatch where
  /-- The place of the rule in its set. -/
  index : Nat
  rule : Rule
  pattern : Path
  /-- Where the values to offer are read from. -/
  selectionPath : Option String
  /-- The second attribute, whose value narrows what is offered. -/
  dependentPath : Option String
  deriving DecidableEq, Inhabited

/-- A rule set with what is remembered of its patterns. -/
structure Matcher where
  rules : RuleSet
  cache : PatternCache
  deriving DecidableEq, Inhabited

namespace Matcher

/-- A matcher that remembers nothing yet. -/
def ofRules (rules : RuleSet) : Matcher := ⟨rules, .empty⟩

/-- The same matcher with nothing remembered. -/
def clear (matcher : Matcher) : Matcher := { matcher with cache := .empty }

/-- The text of the path of an attribute of an element. -/
def candidateText (element name : String) : String := element ++ "/@" ++ name

/-- The match of a rule at a place for an element. -/
def matchOf (element : String) (index : Nat) (rule : Rule) (pattern : Path) : RuleMatch where
  index := index
  rule := rule
  pattern := pattern
  selectionPath := rule.selection.map fun selection => element ++ "/" ++ selection.path
  dependentPath := rule.dependent.map fun dependent => element ++ "/" ++ dependent.target

/-- An attribute that rules are looked up for. -/
structure Candidate where
  element : String
  text : String
  path : Path

/-- The path of an attribute, which has to be absolute. -/
def candidateOf (element name : String) : Logged (Except PathError Candidate) := do
  let text := candidateText element name
  match ← Path.ofTextLogged text with
  | .error error => return .error error
  | .ok path =>
      if path.isAbsolute then
        return .ok ⟨element, text, path⟩
      else
        return .error (.notAbsolute ⟨.candidate, text⟩)

/-- Looks for the rules that cover the candidate among `rules`, the first of which has the place
`index`; with `onlyFirst`, no further than to the first one found. -/
def scan (candidate : Candidate) (onlyFirst : Bool) :
    List Rule → Nat → PatternCache → Logged (Except PathError (List RuleMatch) × PatternCache)
  | [], _, cache => return (.ok [], cache)
  | rule :: rest, index, cache => do
      let (pattern, cache) ← cache.getOrCompile index rule
      match pattern with
      | .error error => return (.error error, cache)
      | .ok none => scan candidate onlyFirst rest (index + 1) cache
      | .ok (some pattern) =>
          match ← Coverage.checkLogged candidate.path pattern with
          | .error fault => return (.error (.notAbsolute fault), cache)
          | .ok false =>
              Logged.emit ⟨.debug, "attribute path is not covered by auto-complete rule",
                [("candidate", candidate.text), ("pattern", rule.patternText)]⟩
              scan candidate onlyFirst rest (index + 1) cache
          | .ok true =>
              Logged.emit ⟨.trace, "auto-complete rule matched",
                [("index", toString index), ("pattern", pattern.render)]⟩
              let found := matchOf candidate.element index rule pattern
              if onlyFirst then
                return (.ok [found], cache)
              else
                let (later, cache) ← scan candidate onlyFirst rest (index + 1) cache
                return (later.map (found :: ·), cache)

/-- Looks for the rules that cover an attribute of an element. -/
def lookUp (matcher : Matcher) (onlyFirst : Bool) (element name : String) :
    Logged (Except PathError (List RuleMatch) × Matcher) := do
  match ← candidateOf element name with
  | .error error => return (.error error, matcher)
  | .ok candidate =>
      let (found, cache) ← scan candidate onlyFirst matcher.rules 0 matcher.cache
      return (found, { matcher with cache })

/-- The first rule that covers an attribute. -/
def find (matcher : Matcher) (element name : String) :
    Logged (Except PathError (Option RuleMatch) × Matcher) := do
  let (found, matcher) ← matcher.lookUp true element name
  return (found.map List.head?, matcher)

/-- All rules that cover an attribute. -/
def matching (matcher : Matcher) (element name : String) :
    Logged (Except PathError (List RuleMatch) × Matcher) :=
  matcher.lookUp false element name

end Matcher

end PathCover
