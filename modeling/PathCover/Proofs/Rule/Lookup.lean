import Mathlib.Data.List.InsertIdx
import PathCover.Proofs.Coverage.Extension
import PathCover.Proofs.Tree.Patience
import PathCover.Rule.Matcher

/-!
# Looking rules up

What a matcher remembers never shows in its answers.  Whatever was asked before, an answer is the
one that reading every pattern afresh would give, as long as no text is nested too deep for the
reader.
-/

namespace PathCover

open Token (NestsWithin)

theorem Path.value_ofTextLogged (text : String) :
    (Path.ofTextLogged text).value = Path.ofText text := rfl

theorem Path.ofText_ne_stuck_of_nests {text : String} (shallow : NestsWithin 83 text) :
    Path.ofText text ≠ .error (.failure .stuck) := by
  have parsed := Tree.parse_ne_stuck .standard text (.inr shallow)
  intro isStuck
  rw [Path.ofText] at isStuck
  cases outcome : ParsedPath.parse .standard text with
  | error failure =>
      rw [outcome] at isStuck
      cases isStuck
      exact parsed (ParsedPath.parse_eq_error.mp outcome)
  | ok tree =>
      rw [outcome] at isStuck
      simp only [pathOfOutcome, ParsedPath.toPath] at isStuck
      split at isStuck <;> cases isStuck

theorem Path.ofText_ne_stuck {text : String} (shallow : NestsWithin 80 text) :
    Path.ofText text ≠ .error (.failure .stuck) :=
  ofText_ne_stuck_of_nests (shallow.weaken (by decide))

/-! ## Patterns -/

namespace Rule

/-- The pattern of a rule, if it can be used, read without any memory. -/
def pattern? (rule : Rule) : Option Path :=
  match Path.ofText rule.patternText with
  | .ok path => if path.isAbsolute then some path else none
  | .error _ => none

theorem pattern?_eq_some_iff {rule : Rule} {pattern : Path} :
    rule.pattern? = some pattern ↔
      Path.ofText rule.patternText = .ok pattern ∧ pattern.isAbsolute = true := by
  rw [pattern?]
  cases Path.ofText rule.patternText with
  | error error => simp
  | ok path =>
      dsimp only
      constructor
      · intro usable
        split at usable
        · rename_i isAbsolute
          cases usable
          exact ⟨rfl, isAbsolute⟩
        · cases usable
      · intro usable
        cases usable.1
        exact if_pos usable.2

/-- The pattern text of a rule is no absolute path. -/
def Unusable (rule : Rule) : Prop :=
  ∀ path, Path.ofText rule.patternText = .ok path → path.isAbsolute = false

theorem Unusable.pattern?_eq_none {rule : Rule} (unusable : rule.Unusable) :
    rule.pattern? = none := by
  apply Option.eq_none_iff_forall_ne_some.mpr
  intro pattern isPattern
  obtain ⟨isPath, isAbsolute⟩ := pattern?_eq_some_iff.mp isPattern
  rw [unusable pattern isPath] at isAbsolute
  cases isAbsolute

/-- Only a reader that is stuck keeps the pattern of a rule from being used or skipped. -/
theorem compile_of_ne_stuck {rule : Rule}
    (notStuck : Path.ofText rule.patternText ≠ .error (.failure .stuck)) :
    rule.compile.value = .ok rule.pattern? := by
  rw [compile, Logged.value_bind, Path.value_ofTextLogged, pattern?]
  cases outcome : Path.ofText rule.patternText with
  | ok path =>
      dsimp only
      split <;> rfl
  | error error =>
      cases error with
      | failure cause =>
          cases cause with
          | stuck => exact absurd outcome notStuck
          | limit limit => rfl
      | invalid report => rfl
      | notAbsolute fault => rfl

theorem compile_value {rule : Rule} (shallow : NestsWithin 80 rule.patternText) :
    rule.compile.value = .ok rule.pattern? :=
  compile_of_ne_stuck (Path.ofText_ne_stuck shallow)

end Rule

/-! ## Memory -/

namespace PatternCache

/-- Everything that is remembered is what comes of reading the rule at its place. -/
def Faithful (cache : PatternCache) (rules : RuleSet) : Prop :=
  ∀ index pattern, cache.get? index = some pattern → rules[index]?.map Rule.pattern? = some pattern

theorem faithful_empty (rules : RuleSet) : empty.Faithful rules := by
  intro index pattern remembered
  cases remembered

theorem get?_insert (cache : PatternCache) (place index : Nat) (pattern : Option Path) :
    (cache.insert place pattern).get? index =
      if place = index then some pattern else cache.get? index := by
  rw [get?, insert, List.find?_cons]
  by_cases same : place = index
  · simp [same]
  · simp [same, get?]

theorem Faithful.insert {cache : PatternCache} {rules : RuleSet} (faithful : cache.Faithful rules)
    {index : Nat} {rule : Rule} (isRule : rules[index]? = some rule) :
    (cache.insert index rule.pattern?).Faithful rules := by
  intro place pattern remembered
  rw [get?_insert] at remembered
  split at remembered
  · rename_i same
    cases same
    rw [isRule]
    exact remembered
  · exact faithful place pattern remembered

/-- A faithful memory gives the pattern that reading the rule would give, and stays faithful. -/
theorem getOrCompile_faithful {cache : PatternCache} {rules : RuleSet}
    (faithful : cache.Faithful rules) {index : Nat} {rule : Rule}
    (isRule : rules[index]? = some rule) (shallow : NestsWithin 80 rule.patternText) :
    ∃ later : PatternCache, later.Faithful rules ∧
      (cache.getOrCompile index rule).value = (.ok rule.pattern?, later) := by
  rw [getOrCompile]
  cases remembered : cache.get? index with
  | some pattern =>
      have isPattern := faithful index pattern remembered
      rw [isRule] at isPattern
      cases isPattern
      exact ⟨cache, faithful, rfl⟩
  | none =>
      refine ⟨cache.insert index rule.pattern?, faithful.insert isRule, ?_⟩
      dsimp only
      rw [Logged.value_bind, rule.compile_value shallow]
      rfl

end PatternCache

namespace Matcher

/-! ## Matches without memory -/

/-- The match of the rule at a place, if its pattern can be used and covers the candidate. -/
def matchAt? (candidate : Candidate) (rule : Rule) (index : Nat) : Option RuleMatch :=
  match rule.pattern? with
  | none => none
  | some pattern =>
      match Coverage.check candidate.path pattern with
      | .ok true => some (matchOf candidate.element index rule pattern)
      | _ => none

theorem matchAt?_eq_some_iff {candidate : Candidate} {rule : Rule} {index : Nat}
    {found : RuleMatch} :
    matchAt? candidate rule index = some found ↔
      ∃ pattern, rule.pattern? = some pattern ∧
        Coverage.check candidate.path pattern = .ok true ∧
        found = matchOf candidate.element index rule pattern := by
  rw [matchAt?]
  cases rule.pattern? with
  | none => simp
  | some pattern =>
      dsimp only
      constructor
      · intro isFound
        split at isFound
        · rename_i covered
          cases isFound
          exact ⟨pattern, rfl, covered, rfl⟩
        · cases isFound
      · rintro ⟨_, ⟨rfl⟩, covered, rfl⟩
        rw [covered]

theorem index_of_matchAt? {candidate : Candidate} {rule : Rule} {index : Nat} {found : RuleMatch}
    (isFound : matchAt? candidate rule index = some found) : found.index = index := by
  obtain ⟨pattern, _, _, isMatch⟩ := matchAt?_eq_some_iff.mp isFound
  rw [isMatch]
  rfl

/-- The matches among rules, the first of which has the place `index`. -/
def matchesFrom (candidate : Candidate) (rules : List Rule) (index : Nat) : List RuleMatch :=
  (rules.zipIdx index).filterMap fun placed => matchAt? candidate placed.1 placed.2

theorem matchesFrom_cons (candidate : Candidate) (rule : Rule) (rules : List Rule) (index : Nat) :
    matchesFrom candidate (rule :: rules) index =
      (matchAt? candidate rule index).toList ++ matchesFrom candidate rules (index + 1) := by
  rw [matchesFrom, List.zipIdx_cons, List.filterMap_cons]
  cases matchAt? candidate rule index <;> rfl

theorem mem_matchesFrom_iff {candidate : Candidate} {rules : List Rule} {found : RuleMatch} :
    found ∈ matchesFrom candidate rules 0 ↔
      ∃ rule, rules[found.index]? = some rule ∧
        matchAt? candidate rule found.index = some found := by
  rw [matchesFrom, List.mem_filterMap]
  constructor
  · rintro ⟨⟨rule, index⟩, placed, isFound⟩
    have isPlace := index_of_matchAt? isFound
    cases isPlace
    exact ⟨rule, List.mk_mem_zipIdx_iff_getElem?.mp placed, isFound⟩
  · rintro ⟨rule, isRule, isFound⟩
    exact ⟨(rule, found.index), List.mk_mem_zipIdx_iff_getElem?.mpr isRule, isFound⟩

theorem le_index_of_mem {candidate : Candidate} {rules : List Rule} {index : Nat}
    {found : RuleMatch} (isMatch : found ∈ matchesFrom candidate rules index) :
    index ≤ found.index := by
  obtain ⟨placed, isPlaced, isFound⟩ := List.mem_filterMap.mp isMatch
  rw [index_of_matchAt? isFound]
  exact List.le_snd_of_mem_zipIdx isPlaced

/-- Matches come in the order of the rules. -/
theorem matchesFrom_increasing (candidate : Candidate) (rules : List Rule) (index : Nat) :
    (matchesFrom candidate rules index).Pairwise (·.index < ·.index) := by
  induction rules generalizing index with
  | nil => exact .nil
  | cons rule rules ih =>
      rw [matchesFrom_cons]
      cases isFound : matchAt? candidate rule index with
      | none => exact ih (index + 1)
      | some found =>
          apply List.Pairwise.cons
          · intro later isLater
            rw [index_of_matchAt? isFound]
            exact le_index_of_mem isLater
          · exact ih (index + 1)

/-! ## Scanning -/

theorem checkLogged_value (candidate pattern : Path) :
    (Coverage.checkLogged candidate pattern).value = Coverage.check candidate pattern := by
  rw [Coverage.checkLogged]
  split <;> rename_i verdict <;> exact verdict.symm

/-- The verdict about a pattern that can be used is that of the walk. -/
theorem check_pattern {rule : Rule} {candidate pattern : Path}
    (isAbsolute : candidate.isAbsolute = true) (isPattern : rule.pattern? = some pattern) :
    Coverage.check candidate pattern = .ok (Coverage.walk candidate pattern).covered :=
  Coverage.check_eq_ok.mpr ⟨isAbsolute, (Rule.pattern?_eq_some_iff.mp isPattern).2, rfl⟩

/-- The matches that a scan reports. -/
def reported (onlyFirst : Bool) (found : List RuleMatch) : List RuleMatch :=
  if onlyFirst then found.take 1 else found

/-- A scan over the rules from a place on reports what it should, whatever is remembered. -/
theorem scan_value (candidate : Candidate) (isAbsolute : candidate.path.isAbsolute = true)
    (onlyFirst : Bool) {rules rest : List Rule} {index : Nat} (isRest : rules.drop index = rest)
    (shallow : ∀ rule ∈ rest, NestsWithin 80 rule.patternText) {cache : PatternCache}
    (faithful : cache.Faithful rules) :
    ∃ later : PatternCache, later.Faithful rules ∧
      (scan candidate onlyFirst rest index cache).value =
        (.ok (reported onlyFirst (matchesFrom candidate rest index)), later) := by
  induction rest generalizing index cache with
  | nil =>
      refine ⟨cache, faithful, ?_⟩
      cases onlyFirst <;> rfl
  | cons rule rest ih =>
      have isRule : rules[index]? = some rule := by
        rw [← List.head?_drop, isRest, List.head?_cons]
      have isLater : rules.drop (index + 1) = rest := by
        rw [← List.tail_drop, isRest, List.tail_cons]
      obtain ⟨cache, faithful, isRead⟩ :=
        PatternCache.getOrCompile_faithful faithful isRule (shallow rule (.head _))
      obtain ⟨later, laterFaithful, laterFound⟩ :=
        ih isLater (fun later isMember => shallow later (.tail _ isMember)) faithful
      rw [scan, Logged.value_bind, isRead, matchesFrom_cons, matchAt?]
      dsimp only
      cases isPattern : rule.pattern? with
      | none => exact ⟨later, laterFaithful, laterFound⟩
      | some pattern =>
          have verdict := check_pattern isAbsolute isPattern
          dsimp only
          rw [Logged.value_bind, checkLogged_value, verdict]
          cases (Coverage.walk candidate.path pattern).covered with
          | false => exact ⟨later, laterFaithful, laterFound⟩
          | true =>
              cases onlyFirst with
              | true => exact ⟨cache, faithful, rfl⟩
              | false =>
                  refine ⟨later, laterFaithful, ?_⟩
                  rw [Logged.value_bind, if_neg Bool.false_ne_true, Logged.value_bind, laterFound]
                  rfl

/-! ## Answers -/

/-- The candidate text of an attribute is no absolute path, for the reason that an error tells. -/
def Refuses (element name : String) (error : PathError) : Prop :=
  Path.ofText (candidateText element name) = .error error ∨
    ∃ path, Path.ofText (candidateText element name) = .ok path ∧ path.isAbsolute = false ∧
      error = .notAbsolute ⟨.candidate, candidateText element name⟩

/-- An attribute of an element with its path. -/
def attributeOf (element name : String) (path : Path) : Candidate :=
  ⟨element, candidateText element name, path⟩

theorem candidateOf_refused {element name : String} {error : PathError}
    (refused : Refuses element name error) : (candidateOf element name).value = .error error := by
  rw [candidateOf, Logged.value_bind, Path.value_ofTextLogged]
  cases refused with
  | inl unread =>
      rw [unread]
      rfl
  | inr relative =>
      obtain ⟨path, isPath, notAbsolute, isError⟩ := relative
      rw [isPath, isError]
      dsimp only
      rw [notAbsolute]
      rfl

theorem candidateOf_absolute {element name : String} {path : Path}
    (isPath : Path.ofText (candidateText element name) = .ok path)
    (isAbsolute : path.isAbsolute = true) :
    (candidateOf element name).value = .ok (attributeOf element name path) := by
  rw [candidateOf, Logged.value_bind, Path.value_ofTextLogged, isPath]
  exact congrArg Logged.value (if_pos isAbsolute)

theorem lookUp_refused {element name : String} {error : PathError}
    (refused : Refuses element name error) (matcher : Matcher) (onlyFirst : Bool) :
    (matcher.lookUp onlyFirst element name).value = (.error error, matcher) := by
  rw [lookUp, Logged.value_bind, candidateOf_refused refused]
  rfl

/-- A matcher of the rules whose memory is faithful to them. -/
structure Faithful (matcher : Matcher) (rules : RuleSet) : Prop where
  sameRules : matcher.rules = rules
  remembered : matcher.cache.Faithful rules

variable {rules : RuleSet} (shallow : ∀ rule ∈ rules, NestsWithin 80 rule.patternText)

include shallow

theorem lookUp_value {matcher : Matcher} (faithful : matcher.Faithful rules)
    {element name : String} {path : Path}
    (isPath : Path.ofText (candidateText element name) = .ok path)
    (isAbsolute : path.isAbsolute = true) (onlyFirst : Bool) :
    ∃ later : Matcher, later.Faithful rules ∧
      (matcher.lookUp onlyFirst element name).value =
        (.ok (reported onlyFirst (matchesFrom (attributeOf element name path) rules 0)),
          later) := by
  obtain ⟨later, laterFaithful, isFound⟩ :=
    scan_value (attributeOf element name path) isAbsolute onlyFirst List.drop_zero shallow
      faithful.remembered
  refine ⟨{ matcher with cache := later }, ⟨faithful.sameRules, laterFaithful⟩, ?_⟩
  rw [lookUp, Logged.value_bind, candidateOf_absolute isPath isAbsolute]
  dsimp only
  rw [Logged.value_bind, faithful.sameRules, isFound]
  rfl

theorem lookUp_faithful {matcher : Matcher} (faithful : matcher.Faithful rules)
    (onlyFirst : Bool) (element name : String) :
    (matcher.lookUp onlyFirst element name).value.2.Faithful rules := by
  cases isPath : Path.ofText (candidateText element name) with
  | error error =>
      rw [lookUp_refused (.inl isPath)]
      exact faithful
  | ok path =>
      cases isAbsolute : path.isAbsolute with
      | false =>
          rw [lookUp_refused (.inr ⟨path, isPath, isAbsolute, rfl⟩)]
          exact faithful
      | true =>
          obtain ⟨later, laterFaithful, isFound⟩ :=
            lookUp_value shallow faithful isPath isAbsolute onlyFirst
          rw [isFound]
          exact laterFaithful

/-! ## Histories -/

omit shallow

/-- What can be asked of a matcher. -/
inductive Request where
  | find (element name : String)
  | matching (element name : String)
  | clear

/-- The matcher behind a request. -/
def after (matcher : Matcher) : Request → Matcher
  | .find element name => (matcher.find element name).value.2
  | .matching element name => (matcher.matching element name).value.2
  | .clear => matcher.clear

/-- The matcher behind a history of requests. -/
def afterAll (matcher : Matcher) (history : List Request) : Matcher :=
  history.foldl after matcher

include shallow

theorem after_faithful {matcher : Matcher} (faithful : matcher.Faithful rules)
    (request : Request) : (matcher.after request).Faithful rules := by
  cases request with
  | find element name => exact lookUp_faithful shallow faithful true element name
  | matching element name => exact lookUp_faithful shallow faithful false element name
  | clear => exact ⟨faithful.sameRules, PatternCache.faithful_empty rules⟩

theorem afterAll_faithful {matcher : Matcher} (faithful : matcher.Faithful rules)
    (history : List Request) : (matcher.afterAll history).Faithful rules := by
  induction history generalizing matcher with
  | nil => exact faithful
  | cons request history ih => exact ih (after_faithful shallow faithful request)

/-- Every matcher that can be reached has a faithful memory. -/
theorem reachable_faithful (history : List Request) :
    ((ofRules rules).afterAll history).Faithful rules :=
  afterAll_faithful shallow ⟨rfl, PatternCache.faithful_empty rules⟩ history

omit shallow

/-! ## Rules that cannot be used -/

/-- The same match where one more rule was put in at a place. -/
def moved (place : Nat) (found : RuleMatch) : RuleMatch :=
  { found with index := if found.index < place then found.index else found.index + 1 }

theorem moved_before {candidate : Candidate} {rule : Rule} {place index : Nat}
    (before : index < place) :
    (matchAt? candidate rule index).map (moved place) = matchAt? candidate rule index := by
  cases isFound : matchAt? candidate rule index with
  | none => rfl
  | some found =>
      have isBefore : found.index < place := index_of_matchAt? isFound ▸ before
      rw [Option.map_some, moved, if_pos isBefore]

theorem moved_behind {candidate : Candidate} {rule : Rule} {place index : Nat}
    (behind : place ≤ index) :
    (matchAt? candidate rule index).map (moved place) = matchAt? candidate rule (index + 1) := by
  rw [matchAt?, matchAt?]
  cases rule.pattern? with
  | none => rfl
  | some pattern =>
      dsimp only
      split
      · have notBefore : ¬ (matchOf candidate.element index rule pattern).index < place :=
          Nat.not_lt.mpr behind
        rw [Option.map_some, moved, if_neg notBefore]
        rfl
      · rfl

theorem matchesFrom_behind (candidate : Candidate) (rules : List Rule) {place index : Nat}
    (behind : place ≤ index) :
    matchesFrom candidate rules (index + 1) =
      (matchesFrom candidate rules index).map (moved place) := by
  induction rules generalizing index with
  | nil => rfl
  | cons rule rules ih =>
      rw [matchesFrom_cons, matchesFrom_cons, List.map_append, ← ih (Nat.le_succ_of_le behind),
        ← moved_behind behind, Option.toList_map]

/-- A rule that cannot be used leaves all matches as they are, wherever it is put in. -/
theorem matchesFrom_insertIdx (candidate : Candidate) {broken : Rule}
    (unusable : broken.pattern? = none) (rules : List Rule) (place index : Nat) :
    matchesFrom candidate (rules.insertIdx place broken) index =
      (matchesFrom candidate rules index).map (moved (index + place)) := by
  have noMatch (index : Nat) : matchAt? candidate broken index = none := by
    rw [matchAt?, unusable]
  induction rules generalizing place index with
  | nil =>
      cases place with
      | zero => rw [List.insertIdx_zero, matchesFrom_cons, noMatch]; rfl
      | succ place => rfl
  | cons rule rules ih =>
      cases place with
      | zero =>
          rw [List.insertIdx_zero, matchesFrom_cons, noMatch]
          exact matchesFrom_behind candidate (rule :: rules) (Nat.le_refl index)
      | succ place =>
          have before : index < index + (place + 1) := Nat.lt_add_of_pos_right place.succ_pos
          rw [List.insertIdx_succ_cons, matchesFrom_cons, matchesFrom_cons, List.map_append, ih,
            ← Option.toList_map, moved_before before, Nat.add_right_comm, Nat.add_assoc]

/-! ## All answers -/

/-- What a matcher answers about an attribute with an absolute path is what its rules make of the
path.  A rule matches exactly if its pattern text is an absolute path that covers the attribute's,
and the matches come in the order of the rules. -/
structure Answers (matcher : Matcher) (rules : RuleSet) (element name : String) (path : Path)
    (found : List RuleMatch) : Prop where
  matching : (matcher.matching element name).value.1 = .ok found
  find : (matcher.find element name).value.1 = .ok found.head?
  increasing : found.Pairwise (·.index < ·.index)
  exactly : ∀ one, one ∈ found ↔
    rules[one.index]? = some one.rule ∧
      Path.ofText one.rule.patternText = .ok one.pattern ∧ one.pattern.isAbsolute = true ∧
      Coverage.check path one.pattern = .ok true ∧
      one = matchOf element one.index one.rule one.pattern

theorem answers_matchesFrom {matcher : Matcher} {rules : RuleSet}
    (shallow : ∀ rule ∈ rules, NestsWithin 80 rule.patternText)
    (faithful : matcher.Faithful rules) {element name : String} {path : Path}
    (isPath : Path.ofText (candidateText element name) = .ok path)
    (isAbsolute : path.isAbsolute = true) :
    matcher.Answers rules element name path
      (matchesFrom (attributeOf element name path) rules 0) := by
  constructor
  · obtain ⟨later, -, isFound⟩ := lookUp_value shallow faithful isPath isAbsolute false
    rw [matching, isFound]
    rfl
  · obtain ⟨later, -, isFound⟩ := lookUp_value shallow faithful isPath isAbsolute true
    rw [Matcher.find, Logged.value_bind, isFound]
    exact congrArg Except.ok (List.head?_take.trans (if_neg Nat.one_ne_zero))
  · exact matchesFrom_increasing _ rules 0
  · intro one
    rw [mem_matchesFrom_iff]
    constructor
    · intro ⟨rule, isRule, isFound⟩
      obtain ⟨pattern, isPattern, covered, isMatch⟩ := matchAt?_eq_some_iff.mp isFound
      obtain ⟨isText, patternAbsolute⟩ := Rule.pattern?_eq_some_iff.mp isPattern
      have sameRule : one.rule = rule := congrArg RuleMatch.rule isMatch
      have samePattern : one.pattern = pattern := congrArg RuleMatch.pattern isMatch
      rw [sameRule, samePattern]
      exact ⟨isRule, isText, patternAbsolute, covered, isMatch⟩
    · intro ⟨isRule, isText, patternAbsolute, covered, isMatch⟩
      have isPattern := Rule.pattern?_eq_some_iff.mpr ⟨isText, patternAbsolute⟩
      exact ⟨one.rule, isRule, matchAt?_eq_some_iff.mpr ⟨one.pattern, isPattern, covered, isMatch⟩⟩

/-- After every history a matcher answers as if it remembered nothing.  An attribute whose text is
no absolute path is refused with its error, and the matcher stays as it is.  About any other one it
answers what the rules make of its path, and a rule that cannot be used makes no difference: put in
anywhere, it only moves the places of the rules behind it. -/
theorem answers_reachable (rules : RuleSet)
    (shallow : ∀ rule ∈ rules, NestsWithin 80 rule.patternText) (history : List Request)
    (element name : String) (candidateShallow : NestsWithin 80 (candidateText element name)) :
    let matcher := (ofRules rules).afterAll history
    (∀ error, Refuses element name error → error ≠ .failure .stuck ∧
      (matcher.find element name).value = (.error error, matcher) ∧
      (matcher.matching element name).value = (.error error, matcher)) ∧
    ∀ path, Path.ofText (candidateText element name) = .ok path → path.isAbsolute = true →
      ∃ found, matcher.Answers rules element name path found ∧
        ∀ (broken : Rule) (place : Nat) (otherHistory : List Request),
          broken.Unusable → NestsWithin 80 broken.patternText →
            ((ofRules (rules.insertIdx place broken)).afterAll otherHistory).Answers
              (rules.insertIdx place broken) element name path (found.map (moved place)) := by
  intro matcher
  constructor
  · intro error refused
    refine ⟨?_, ?_, lookUp_refused refused matcher false⟩
    · intro isStuck
      cases refused with
      | inl unread => exact Path.ofText_ne_stuck candidateShallow (isStuck ▸ unread)
      | inr relative =>
          obtain ⟨_, _, _, isError⟩ := relative
          cases isStuck.symm.trans isError
    · rw [Matcher.find, Logged.value_bind, lookUp_refused refused matcher true]
      rfl
  · intro path isPath isAbsolute
    have faithful : matcher.Faithful rules := reachable_faithful shallow history
    refine ⟨_, answers_matchesFrom shallow faithful isPath isAbsolute, ?_⟩
    intro broken place otherHistory unusable brokenShallow
    have allShallow : ∀ rule ∈ rules.insertIdx place broken, NestsWithin 80 rule.patternText := by
      intro rule isMember
      cases List.eq_or_mem_of_mem_insertIdx isMember with
      | inl isBroken => exact isBroken ▸ brokenShallow
      | inr isOld => exact shallow rule isOld
    have same := matchesFrom_insertIdx (attributeOf element name path) unusable.pattern?_eq_none
      rules place 0
    rw [Nat.zero_add] at same
    rw [← same]
    exact answers_matchesFrom allShallow (reachable_faithful allShallow otherHistory) isPath
      isAbsolute

/-- The rules `//p/@n` and `p/@n`, and the attribute `/p/@n` after a few requests -/
theorem answers_reachable_notes :
    let rules : RuleSet := [⟨[], "//p", "@n", none, none⟩, ⟨[], "p", "@n", none, none⟩]
    let matcher := (ofRules rules).afterAll [.find "/p" "n", .clear, .matching "p" "n"]
    let path : Path := [.separator .child, .axis ⟨.child, .name ⟨none, .named "p"⟩⟩,
      .axis ⟨.attribute, .name ⟨none, .named "n"⟩⟩]
    (∀ rule ∈ rules, NestsWithin 80 rule.patternText) ∧ NestsWithin 80 (candidateText "/p" "n") ∧
      ∃ found, matcher.Answers rules "/p" "n" path found := by
  intro rules matcher path
  have shallow : ∀ rule ∈ rules, NestsWithin 80 rule.patternText := by decide +kernel
  have candidateShallow : NestsWithin 80 (candidateText "/p" "n") := by decide +kernel
  have isText : (Path.ofText (candidateText "/p" "n")).toOption = some path := by decide +kernel
  have isPath : Path.ofText (candidateText "/p" "n") = .ok path := by
    cases outcome : Path.ofText (candidateText "/p" "n") with
    | error error =>
        rw [outcome] at isText
        cases isText
    | ok read =>
        rw [outcome] at isText
        cases isText
        rfl
  obtain ⟨found, answers, -⟩ := (answers_reachable rules shallow
    [.find "/p" "n", .clear, .matching "p" "n"] "/p" "n" candidateShallow).2 path isPath rfl
  exact ⟨shallow, candidateShallow, found, answers⟩

end Matcher

end PathCover
