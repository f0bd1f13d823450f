import PathCover.ParsedPath
import PathCover.Rule.Basic

/-!
# Compiled patterns

The pattern of a rule is read once and remembered under the place of the rule in its set.  A rule
whose pattern cannot be used is remembered as such, so that it is reported only once.
-/

namespace PathCover

namespace Rule

/-- What comes of reading a rule's pattern: the pattern if it can be used, and what there is to log.
Only a reader that is stuck makes this fail. -/
def compile (rule : Rule) : Logged (Except PathError (Option Path)) := do
  match ← Path.ofTextLogged rule.patternText with
  | .ok path =>
      if path.isAbsolute then
        return .ok (some path)
      else
        Logged.emit ⟨.error, "invalid auto-complete rule, path must be absolute, skipping",
          [("context", rule.context), ("attribute", rule.target), ("pattern", path.render)]⟩
        return .ok none
  | .error (.failure .stuck) => return .error (.failure .stuck)
  | .error (.invalid report) =>
      Logged.emit ⟨.warn, "cannot parse auto-complete rule pattern, skipping",
        [("pattern", rule.patternText), ("diagnostics", report.render)]⟩
      return .ok none
  | .error error =>
      Logged.emit ⟨.warn, "cannot parse auto-complete rule pattern, skipping",
        [("pattern", rule.patternText), ("error", error.message)]⟩
      return .ok none

end Rule

/-- What is remembered for each place at which a rule was presented. -/
structure PatternCache where
  entries : List (Nat × Option Path)
  deriving DecidableEq, Inhabited

namespace PatternCache

def empty : PatternCache := ⟨[]⟩

/-- How many places are remembered. -/
def size (cache : PatternCache) : Nat := cache.entries.length

/-- What is remembered for a place, if anything is. -/
def get? (cache : PatternCache) (index : Nat) : Option (Option Path) :=
  (cache.entries.find? (·.1 = index)).map (·.2)

/-- Remembers what came of the rule at a place. -/
def insert (cache : PatternCache) (index : Nat) (pattern : Option Path) : PatternCache :=
  ⟨(index, pattern) :: cache.entries⟩

/-- The pattern for a place, from memory or else from the rule that is presented. -/
def getOrCompile (cache : PatternCache) (index : Nat) (rule : Rule) :
    Logged (Except PathError (Option Path) × PatternCache) := do
  match cache.get? index with
  | some pattern => return (.ok pattern, cache)
  | none =>
      match ← rule.compile with
      | .ok pattern => return (.ok pattern, cache.insert index pattern)
      | .error error => return (.error error, cache)

end PatternCache

end PathCover
