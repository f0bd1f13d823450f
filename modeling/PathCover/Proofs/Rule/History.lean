import Mathlib.Data.List.Dedup
import PathCover.Proofs.Rule.Lookup

/-!
# What is remembered of rules

The memory for patterns is its history: for each place it holds what came of the first rule that was
presented there since it was last cleared, and only that first rule is read and complained about.  A
matcher presents its rules from the front and in order, so that what it remembers is a stretch at
the front of its rules, as far as any search has come.
-/

namespace PathCover

open Token (NestsWithin)

/-! ## Warnings and errors -/

/-- A warning or an error. -/
def Event.isGrave (event : Event) : Bool := event.level.shownAt .warn

theorem Path.grave_ofTextLogged (text : String) :
    (Path.ofTextLogged text).events.filter Event.isGrave = [] := by
  have traced : ∀ parsed : Option ParsedPath,
      (parsed.toList.map ParsedPath.event).filter Event.isGrave = [] := by
    rintro (_ | parsed) <;> rfl
  rw [ofTextLogged, Logged.events_bind, Logged.events_pure, List.append_nil]
  exact traced _

theorem Coverage.grave_checkLogged (candidate pattern : Path) :
    (checkLogged candidate pattern).events.filter Event.isGrave = [] := by
  have traced : ∀ happenings : List Happening,
      (happenings.map Happening.event).filter Event.isGrave = [] := by
    intro happenings
    induction happenings with
    | nil => rfl
    | cons happening happenings ih => cases happening <;> exact ih
  rw [checkLogged]
  split
  · rfl
  · rw [List.filter_append, traced]
    rfl

namespace Rule

/-- The warnings and errors that reading a rule's pattern gives rise to. -/
def complaints (rule : Rule) : List Event := rule.compile.events.filter Event.isGrave

variable {rule : Rule}

/-- Exactly a rule that cannot be used is complained about, and only once. -/
theorem length_complaints
    (notStuck : Path.ofText rule.patternText ≠ .error (.failure .stuck)) :
    rule.complaints.length = if rule.pattern?.isSome then 0 else 1 := by
  rw [complaints, compile, Logged.events_bind, List.filter_append, Path.grave_ofTextLogged,
    List.nil_append, Path.value_ofTextLogged, pattern?]
  cases outcome : Path.ofText rule.patternText with
  | ok path =>
      dsimp only
      by_cases isAbsolute : path.isAbsolute = true
      · simp only [if_pos isAbsolute]
        rfl
      · simp only [if_neg isAbsolute]
        rfl
  | error error =>
      cases error with
      | failure cause =>
          cases cause with
          | stuck => exact absurd outcome notStuck
          | limit limit => rfl
      | invalid report => rfl
      | notAbsolute fault => rfl

/-- Reading a pattern never goes unnoticed. -/
theorem events_compile_ne_nil
    (notStuck : Path.ofText rule.patternText ≠ .error (.failure .stuck)) :
    rule.compile.events ≠ [] := by
  cases isParsed : ParsedPath.parse .standard rule.patternText with
  | ok parsed =>
      have read : (Path.ofTextLogged rule.patternText).events = [parsed.event] := by
        rw [Path.ofTextLogged, Logged.events_bind, ParsedPath.parseLogged, isParsed]
        rfl
      rw [compile, Logged.events_bind, read]
      exact List.cons_ne_nil _ _
  | error failure =>
      have unusable : rule.pattern? = none := by
        rw [pattern?, Path.ofText, isParsed]
        rfl
      have complained := length_complaints notStuck
      intro nothing
      rw [complaints, nothing, unusable] at complained
      cases complained

end Rule

/-! ## The memory and its history -/

namespace PatternCache

/-- The first rule that was presented for a place. -/
def firstOf (shown : List (Nat × Rule)) (index : Nat) : Option Rule :=
  (shown.find? (·.1 = index)).map Prod.snd

theorem firstOf_concat (shown : List (Nat × Rule)) (place index : Nat) (rule : Rule) :
    firstOf (shown ++ [(place, rule)]) index =
      (firstOf shown index).or (if place = index then some rule else none) := by
  rw [firstOf, List.find?_append, firstOf]
  cases shown.find? (·.1 = index) with
  | some earlier => rfl
  | none => by_cases same : place = index <;> simp [same]

theorem isSome_firstOf {shown : List (Nat × Rule)} {index : Nat} :
    (firstOf shown index).isSome ↔ index ∈ shown.map Prod.fst := by
  simp [firstOf]

theorem isSome_get? {cache : PatternCache} {index : Nat} :
    (cache.get? index).isSome ↔ index ∈ cache.entries.map Prod.fst := by
  simp [get?]

/-- For each place, what came of the first rule that was presented there is remembered, once. -/
structure Follows (cache : PatternCache) (shown : List (Nat × Rule)) : Prop where
  remembered : ∀ index, cache.get? index = (firstOf shown index).map Rule.pattern?
  distinct : (cache.entries.map Prod.fst).Nodup

theorem follows_empty : empty.Follows [] :=
  ⟨fun _ => rfl, List.nodup_nil⟩

variable {cache : PatternCache} {shown : List (Nat × Rule)} {index : Nat} {rule earlier : Rule}

namespace Follows

/-- A further rule for a place makes no difference. -/
theorem again (follows : cache.Follows shown) (known : firstOf shown index = some earlier)
    (rule : Rule) : cache.Follows (shown ++ [(index, rule)]) := by
  refine ⟨fun place => ?_, follows.distinct⟩
  rw [follows.remembered, firstOf_concat]
  by_cases same : index = place
  · rw [← same, known]
    rfl
  · rw [if_neg same, Option.or_none]

theorem insert (follows : cache.Follows shown) (unknown : firstOf shown index = none)
    (rule : Rule) : (cache.insert index rule.pattern?).Follows (shown ++ [(index, rule)]) := by
  constructor
  · intro place
    rw [get?_insert, firstOf_concat, follows.remembered]
    by_cases same : index = place
    · rw [if_pos same, if_pos same, ← same, unknown]
      rfl
    · rw [if_neg same, if_neg same, Option.or_none]
  · have unread : index ∉ cache.entries.map Prod.fst := by
      rw [← isSome_get?, follows.remembered, unknown]
      exact Bool.false_ne_true
    exact List.nodup_cons.mpr ⟨unread, follows.distinct⟩

/-- As many places are remembered as rules were presented for. -/
theorem size_eq (follows : cache.Follows shown) :
    cache.size = (shown.map Prod.fst).dedup.length := by
  have same : ∀ index, index ∈ cache.entries.map Prod.fst ↔ index ∈ (shown.map Prod.fst).dedup := by
    intro index
    rw [List.mem_dedup, ← isSome_get?, ← isSome_firstOf, follows.remembered, Option.isSome_map]
  have perm := (List.perm_ext_iff_of_nodup follows.distinct (List.nodup_dedup _)).mpr same
  rw [← perm.length_eq, List.length_map]
  rfl

/-- A place for which a rule was presented before is answered from memory. -/
theorem getOrCompile_known (follows : cache.Follows shown)
    (known : firstOf shown index = some earlier) (rule : Rule) :
    cache.getOrCompile index rule = pure (.ok earlier.pattern?, cache) := by
  have remembered := follows.remembered index
  rw [known] at remembered
  rw [getOrCompile, remembered]
  rfl

/-- A rule at a place of its own is read. -/
theorem events_unknown (follows : cache.Follows shown) (unknown : firstOf shown index = none)
    (rule : Rule) : (cache.getOrCompile index rule).events = rule.compile.events := by
  have remembered := follows.remembered index
  rw [unknown] at remembered
  rw [getOrCompile, remembered]
  dsimp only [Option.map_none]
  rw [Logged.events_bind]
  cases rule.compile.value <;> exact List.append_nil _

theorem value_unknown (follows : cache.Follows shown) (unknown : firstOf shown index = none)
    (shallow : NestsWithin 80 rule.patternText) :
    (cache.getOrCompile index rule).value =
      (.ok rule.pattern?, cache.insert index rule.pattern?) := by
  have remembered := follows.remembered index
  rw [unknown] at remembered
  rw [getOrCompile, remembered]
  dsimp only [Option.map_none]
  rw [Logged.value_bind, rule.compile_value shallow]
  rfl

end Follows

/-! ## Histories of a memory -/

/-- What can be asked of a memory. -/
inductive Request where
  | get (index : Nat) (rule : Rule)
  | clear

/-- The memory behind a request. -/
def after (cache : PatternCache) : Request → PatternCache
  | .get index rule => (cache.getOrCompile index rule).value.2
  | .clear => .empty

/-- The memory behind a history of requests. -/
def afterAll (cache : PatternCache) (history : List Request) : PatternCache :=
  history.foldl after cache

/-- The rules that were presented, each with its place, behind a request. -/
def Request.show (shown : List (Nat × Rule)) : Request → List (Nat × Rule)
  | .get index rule => shown ++ [(index, rule)]
  | .clear => []

/-- The rules that were presented since the last clear, each with its place, oldest first. -/
def presented (history : List Request) : List (Nat × Rule) := history.foldl Request.show []

theorem after_follows (follows : cache.Follows shown) {request : Request}
    (shallow : ∀ index rule, request = .get index rule → NestsWithin 80 rule.patternText) :
    (cache.after request).Follows (request.show shown) := by
  cases request with
  | clear => exact follows_empty
  | get index rule =>
      cases known : firstOf shown index with
      | some earlier =>
          rw [after, follows.getOrCompile_known known]
          exact follows.again known rule
      | none =>
          rw [after, follows.value_unknown known (shallow index rule rfl)]
          exact follows.insert known rule

theorem afterAll_follows (follows : cache.Follows shown) {history : List Request}
    (shallow : ∀ index rule, .get index rule ∈ history → NestsWithin 80 rule.patternText) :
    (cache.afterAll history).Follows (history.foldl Request.show shown) := by
  induction history generalizing cache shown with
  | nil => exact follows
  | cons request history ih =>
      refine ih (after_follows follows ?_) fun index rule later =>
        shallow index rule (.tail _ later)
      rintro index rule rfl
      exact shallow index rule (.head _)

/-- What a memory answers, logs and counts, given the rules that were presented to it: it answers
with what comes of the first rule for a place, this one included, and it reads a rule if that is the
first one. -/
structure Recalls (cache : PatternCache) (shown : List (Nat × Rule)) : Prop where
  answer : ∀ index rule, NestsWithin 80 rule.patternText →
    (cache.getOrCompile index rule).value.1 = .ok ((firstOf shown index).getD rule).pattern?
  events : ∀ index rule, (cache.getOrCompile index rule).events =
    if index ∈ shown.map Prod.fst then [] else rule.compile.events
  size : cache.size = (shown.map Prod.fst).dedup.length

theorem Follows.recalls (follows : cache.Follows shown) : cache.Recalls shown := by
  refine ⟨?_, ?_, follows.size_eq⟩
  · intro index rule shallow
    cases known : firstOf shown index with
    | some earlier =>
        rw [follows.getOrCompile_known known]
        rfl
    | none =>
        rw [follows.value_unknown known shallow]
        rfl
  · intro index rule
    cases known : firstOf shown index with
    | some earlier =>
        rw [follows.getOrCompile_known known, if_pos]
        · rfl
        · rw [← isSome_firstOf, known]
          rfl
    | none =>
        rw [follows.events_unknown known, if_neg]
        rw [← isSome_firstOf, known]
        exact Bool.false_ne_true

end PatternCache

namespace Matcher

open PatternCache (firstOf)

/-! ## The front of the rules -/

/-- The first `count` rules with their places. -/
def front (rules : RuleSet) (count : Nat) : List (Nat × Rule) :=
  (rules.take count).zipIdx.map Prod.swap

/-- What there is to complain about in the first `count` rules. -/
def complaintsTo (rules : RuleSet) (count : Nat) : List Event :=
  (rules.take count).flatMap Rule.complaints

variable {rules : RuleSet} {index count : Nat} {rule : Rule}

theorem front_succ (isRule : rules[count]? = some rule) :
    front rules (count + 1) = front rules count ++ [(count, rule)] := by
  obtain ⟨within, -⟩ := List.getElem?_eq_some_iff.mp isRule
  have length : (rules.take count).length = count := List.length_take_of_le (Nat.le_of_lt within)
  rw [front, front, List.take_add_one, isRule, List.zipIdx_append, List.map_append, length,
    Nat.zero_add]
  rfl

theorem complaintsTo_succ (isRule : rules[count]? = some rule) :
    complaintsTo rules (count + 1) = complaintsTo rules count ++ rule.complaints := by
  rw [complaintsTo, complaintsTo, List.take_add_one, isRule, List.flatMap_append]
  exact congrArg _ (List.append_nil _)

theorem places_front (within : count ≤ rules.length) :
    (front rules count).map Prod.fst = List.range count := by
  have places : (Prod.fst ∘ Prod.swap : Rule × Nat → Nat) = Prod.snd := rfl
  rw [front, List.map_map, places, List.zipIdx_map_snd, List.length_take_of_le within,
    List.range_eq_range']

/-- The rule that is found for a place among rules in a row is the one that stands there. -/
theorem firstOf_zipIdx (rules : List Rule) (start index : Nat) :
    firstOf ((rules.zipIdx start).map Prod.swap) (start + index) = rules[index]? := by
  induction rules generalizing start index with
  | nil => rfl
  | cons rule rules ih =>
      rw [List.zipIdx_cons, List.map_cons, firstOf, List.find?_cons]
      cases index with
      | zero => simp
      | succ index =>
          have later := ih (start + 1) index
          rw [Nat.add_assoc, Nat.add_comm 1 index] at later
          simpa [firstOf] using later

theorem firstOf_front (rules : RuleSet) (count index : Nat) :
    firstOf (front rules count) index = (rules.take count)[index]? := by
  rw [← firstOf_zipIdx _ 0 index, Nat.zero_add]
  rfl

/-! ## One rule of a search -/

variable {cache : PatternCache}

/-- A search that gets to a rule behind the front reads it, and then the rule is part of the front;
of a rule in the front it takes what is remembered. -/
theorem getOrCompile_front (isRule : rules[index]? = some rule) (reached : index ≤ count)
    (follows : cache.Follows (front rules count)) (shallow : NestsWithin 80 rule.patternText) :
    ∃ later : PatternCache, later.Follows (front rules (max count (index + 1))) ∧
      (cache.getOrCompile index rule).value = (.ok rule.pattern?, later) ∧
      complaintsTo rules count ++ (cache.getOrCompile index rule).events.filter Event.isGrave =
        complaintsTo rules (max count (index + 1)) := by
  rcases Nat.lt_or_eq_of_le reached with before | rfl
  · have known : firstOf (front rules count) index = some rule := by
      rw [firstOf_front, List.getElem?_take_of_lt before, isRule]
    rw [Nat.max_eq_left before, follows.getOrCompile_known known]
    exact ⟨cache, follows, rfl, List.append_nil _⟩
  · have unknown : firstOf (front rules index) index = none := by
      rw [firstOf_front, List.getElem?_eq_none (List.length_take_le _ _)]
    rw [Nat.max_eq_right (Nat.le_succ index), front_succ isRule, complaintsTo_succ isRule,
      follows.events_unknown unknown, follows.value_unknown unknown shallow]
    exact ⟨_, follows.insert unknown rule, rfl, rfl⟩

/-! ## Searches -/

/-- How far a search has come that gave an answer: not at all if it was refused, and otherwise to
the end, unless it ended with the first rule that it found. -/
def comesTo (rules : RuleSet) (onlyFirst : Bool) : Except PathError (List RuleMatch) → Nat
  | .error _ => 0
  | .ok found =>
      match onlyFirst, found with
      | true, first :: _ => first.index + 1
      | _, _ => rules.length

/-- What a search from a place on leaves behind, where the rules in front of it were read before:
what is remembered is the front of the rules as far as it has come, and of the rules that it has
come to all were complained about once. -/
structure Leaves (rules : RuleSet) (onlyFirst : Bool) (index count : Nat)
    (search : Logged (Except PathError (List RuleMatch) × PatternCache)) (found : List RuleMatch) :
    Prop where
  answer : search.value.1 = .ok found
  forward : index ≤ comesTo rules onlyFirst (.ok found)
  within : comesTo rules onlyFirst (.ok found) ≤ rules.length
  follows : search.value.2.Follows (front rules (max count (comesTo rules onlyFirst (.ok found))))
  complaints : complaintsTo rules count ++ search.events.filter Event.isGrave =
    complaintsTo rules (max count (comesTo rules onlyFirst (.ok found)))

/-- A search that goes on behind a rule leaves behind what its later part does. -/
theorem Leaves.behind {onlyFirst : Bool} {found more : List RuleMatch} {read : List Event}
    {search whole : Logged (Except PathError (List RuleMatch) × PatternCache)}
    (later : Leaves rules onlyFirst (index + 1) (max count (index + 1)) search found)
    (complained : complaintsTo rules count ++ read = complaintsTo rules (max count (index + 1)))
    (value : whole.value = (.ok more, search.value.2))
    (events : whole.events.filter Event.isGrave = read ++ search.events.filter Event.isGrave)
    (come : comesTo rules onlyFirst (.ok more) = comesTo rules onlyFirst (.ok found)) :
    Leaves rules onlyFirst index count whole more := by
  have further : max (max count (index + 1)) (comesTo rules onlyFirst (.ok found)) =
      max count (comesTo rules onlyFirst (.ok found)) := by
    rw [Nat.max_assoc, Nat.max_eq_right later.forward]
  refine ⟨by rw [value], ?_, ?_, ?_, ?_⟩
  · rw [come]
    exact Nat.le_of_succ_le later.forward
  · rw [come]
    exact later.within
  · rw [come, value, ← further]
    exact later.follows
  · rw [come, events, ← List.append_assoc, complained, ← further]
    exact later.complaints

theorem scan_leaves {candidate : Candidate} (isAbsolute : candidate.path.isAbsolute = true)
    (onlyFirst : Bool) {rest : List Rule} (isRest : rules.drop index = rest)
    (started : index ≤ rules.length) (reached : index ≤ count)
    (shallow : ∀ rule ∈ rest, NestsWithin 80 rule.patternText)
    (follows : cache.Follows (front rules count)) :
    ∃ found, Leaves rules onlyFirst index count (scan candidate onlyFirst rest index cache)
      found := by
  induction rest generalizing index count cache with
  | nil =>
      have atEnd : rules.length = index :=
        Nat.le_antisymm (List.drop_eq_nil_iff.mp isRest) started
      have come : comesTo rules onlyFirst (.ok []) = index := by
        rw [← atEnd]
        cases onlyFirst <;> rfl
      refine ⟨[], rfl, ?_, ?_, ?_, ?_⟩
      · exact Nat.le_of_eq come.symm
      · rw [come]
        exact started
      · rw [come, Nat.max_eq_left reached]
        exact follows
      · rw [come, Nat.max_eq_left reached]
        exact List.append_nil _
  | cons rule rest ih =>
      have isRule : rules[index]? = some rule := by
        rw [← List.head?_drop, isRest, List.head?_cons]
      have isLater : rules.drop (index + 1) = rest := by
        rw [← List.tail_drop, isRest, List.tail_cons]
      obtain ⟨inside, -⟩ := List.getElem?_eq_some_iff.mp isRule
      obtain ⟨known, follows, isRead, complained⟩ :=
        getOrCompile_front isRule reached follows (shallow rule (.head _))
      obtain ⟨found, later⟩ := ih isLater inside (Nat.le_max_right _ _)
        (fun later isMember => shallow later (.tail _ isMember)) follows
      cases isPattern : rule.pattern? with
      | none =>
          rw [isPattern] at isRead
          refine ⟨found, later.behind complained ?_ ?_ rfl⟩
          · rw [scan, Logged.value_bind, isRead]
            exact Prod.ext later.answer rfl
          · rw [scan, Logged.events_bind, List.filter_append, isRead]
      | some pattern =>
          rw [isPattern] at isRead
          have verdict := check_pattern isAbsolute isPattern
          cases covered : (Coverage.walk candidate.path pattern).covered with
          | false =>
              rw [covered] at verdict
              refine ⟨found, later.behind complained ?_ ?_ rfl⟩
              · rw [scan, Logged.value_bind, isRead]
                dsimp only
                rw [Logged.value_bind, checkLogged_value, verdict]
                exact Prod.ext later.answer rfl
              · rw [scan, Logged.events_bind, List.filter_append, isRead]
                dsimp only
                rw [Logged.events_bind, List.filter_append, Coverage.grave_checkLogged,
                  checkLogged_value, verdict]
                rfl
          | true =>
              rw [covered] at verdict
              cases onlyFirst with
              | true =>
                  -- The search ends here, and so has come just past this rule.
                  have value : (scan candidate true (rule :: rest) index cache).value =
                      (.ok [matchOf candidate.element index rule pattern], known) := by
                    rw [scan, Logged.value_bind, isRead]
                    dsimp only
                    rw [Logged.value_bind, checkLogged_value, verdict]
                    rfl
                  refine ⟨_, congrArg Prod.fst value, Nat.le_succ index, inside, ?_, ?_⟩
                  · rw [value]
                    exact follows
                  · rw [scan, Logged.events_bind, List.filter_append, isRead]
                    dsimp only
                    rw [Logged.events_bind, List.filter_append, Coverage.grave_checkLogged,
                      checkLogged_value, verdict]
                    exact (congrArg _ (List.append_nil _)).trans complained
              | false =>
                  refine ⟨matchOf candidate.element index rule pattern :: found,
                    later.behind complained ?_ ?_ rfl⟩
                  · rw [scan, Logged.value_bind, isRead]
                    dsimp only
                    rw [Logged.value_bind, checkLogged_value, verdict]
                    dsimp only
                    rw [Logged.value_bind, if_neg Bool.false_ne_true, Logged.value_bind]
                    exact Prod.ext (congrArg (Except.map _) later.answer) rfl
                  · rw [scan, Logged.events_bind, List.filter_append, isRead]
                    dsimp only
                    rw [Logged.events_bind, List.filter_append, Coverage.grave_checkLogged,
                      checkLogged_value, verdict]
                    dsimp only
                    rw [Logged.events_bind, if_neg Bool.false_ne_true, Logged.events_bind]
                    exact congrArg (_ ++ List.filter _ ·) (List.append_nil _)

/-! ## Histories of a matcher -/

/-- How many rules a request has come to: none if it was refused, and otherwise all, unless it asked
for the first match only and ended with it. -/
def reach (matcher : Matcher) : Request → Nat
  | .find element name =>
      match (matcher.find element name).value.1 with
      | .ok (some found) => found.index + 1
      | .ok none => matcher.rules.length
      | .error _ => 0
  | .matching element name =>
      match (matcher.matching element name).value.1 with
      | .ok _ => matcher.rules.length
      | .error _ => 0
  | .clear => 0

/-- The furthest that any of several requests has come, one made after the other. -/
def furthest (matcher : Matcher) : List Request → Nat
  | [] => 0
  | request :: later => max (matcher.reach request) ((matcher.after request).furthest later)

/-- What is logged during a request. -/
def events (matcher : Matcher) : Request → List Event
  | .find element name => (matcher.find element name).events
  | .matching element name => (matcher.matching element name).events
  | .clear => []

/-- What is logged during several requests, one made after the other. -/
def eventsAll (matcher : Matcher) : List Request → List Event
  | [] => []
  | request :: later => matcher.events request ++ (matcher.after request).eventsAll later

/-- A matcher that remembers the front of its rules. -/
structure Remembers (matcher : Matcher) (rules : RuleSet) (count : Nat) : Prop where
  sameRules : matcher.rules = rules
  follows : matcher.cache.Follows (front rules count)

theorem remembers_clear {matcher : Matcher} (sameRules : matcher.rules = rules) :
    matcher.clear.Remembers rules 0 :=
  ⟨sameRules, PatternCache.follows_empty⟩

theorem grave_candidateOf (element name : String) :
    (candidateOf element name).events.filter Event.isGrave = [] := by
  rw [candidateOf, Logged.events_bind, List.filter_append, Path.grave_ofTextLogged,
    List.nil_append]
  cases (Path.ofTextLogged (candidateText element name)).value with
  | error error => rfl
  | ok path =>
      dsimp only
      split <;> rfl

theorem isAbsolute_of_candidateOf {element name : String} {candidate : Candidate}
    (isCandidate : (candidateOf element name).value = .ok candidate) :
    candidate.path.isAbsolute = true := by
  rw [candidateOf, Logged.value_bind, Path.value_ofTextLogged] at isCandidate
  cases isPath : Path.ofText (candidateText element name) with
  | error error =>
      rw [isPath] at isCandidate
      cases isCandidate
  | ok path =>
      rw [isPath] at isCandidate
      dsimp only at isCandidate
      split at isCandidate
      · rename_i isAbsolute
        cases isCandidate
        exact isAbsolute
      · cases isCandidate

/-- What a request leaves behind where the front of the rules was remembered: the front as far as
any of them has come, and of the rules that are new in it each was complained about once. -/
structure Advances (rules : RuleSet) (count stop : Nat) (events : List Event) (later : Matcher) :
    Prop where
  within : stop ≤ rules.length
  remembers : later.Remembers rules (max count stop)
  complaints : complaintsTo rules count ++ events.filter Event.isGrave =
    complaintsTo rules (max count stop)

variable {matcher : Matcher}

/-- A request that comes to no rule and complains about nothing leaves everything as it was. -/
theorem Remembers.stays (remembers : matcher.Remembers rules count) {events : List Event}
    (silent : events.filter Event.isGrave = []) : Advances rules count 0 events matcher := by
  refine ⟨Nat.zero_le _, ?_, ?_⟩
  · rw [Nat.max_zero]
    exact remembers
  · rw [Nat.max_zero, silent, List.append_nil]

variable (shallow : ∀ rule ∈ rules, NestsWithin 80 rule.patternText)

include shallow

theorem lookUp_advances (remembers : matcher.Remembers rules count) (onlyFirst : Bool)
    (element name : String) :
    Advances rules count (comesTo rules onlyFirst (matcher.lookUp onlyFirst element name).value.1)
      (matcher.lookUp onlyFirst element name).events
      (matcher.lookUp onlyFirst element name).value.2 := by
  have silent := grave_candidateOf element name
  rw [lookUp, Logged.value_bind, Logged.events_bind]
  cases isCandidate : (candidateOf element name).value with
  | error error =>
      dsimp only
      rw [Logged.value_pure, Logged.events_pure, List.append_nil]
      exact remembers.stays silent
  | ok candidate =>
      obtain ⟨found, leaves⟩ := scan_leaves (isAbsolute_of_candidateOf isCandidate) onlyFirst
        List.drop_zero (Nat.zero_le _) (Nat.zero_le count) shallow remembers.follows
      dsimp only
      rw [Logged.value_bind, Logged.events_bind, remembers.sameRules, Logged.value_pure,
        Logged.events_pure, List.append_nil, leaves.answer]
      refine ⟨leaves.within, ⟨rfl, leaves.follows⟩, ?_⟩
      rw [List.filter_append, silent]
      exact leaves.complaints

theorem after_advances (remembers : matcher.Remembers rules count) {request : Request}
    (noClear : request ≠ .clear) :
    Advances rules count (matcher.reach request) (matcher.events request)
      (matcher.after request) := by
  cases request with
  | clear => exact absurd rfl noClear
  | matching element name =>
      have advances := lookUp_advances shallow remembers false element name
      rw [events, after, matching, reach.eq_def]
      dsimp only
      rw [matching, remembers.sameRules]
      cases isFound : (matcher.lookUp false element name).value.1 with
      | error error =>
          rw [isFound] at advances
          exact advances
      | ok found =>
          rw [isFound] at advances
          exact advances
  | find element name =>
      have advances := lookUp_advances shallow remembers true element name
      have silent : (matcher.find element name).events =
          (matcher.lookUp true element name).events := List.append_nil _
      have answer : (matcher.find element name).value =
        ((matcher.lookUp true element name).value.1.map List.head?,
          (matcher.lookUp true element name).value.2) := rfl
      rw [events, after, reach.eq_def]
      dsimp only
      rw [silent, answer, remembers.sameRules]
      cases isFound : (matcher.lookUp true element name).value.1 with
      | error error =>
          rw [isFound] at advances
          exact advances
      | ok found =>
          rw [isFound] at advances
          cases found with
          | nil => exact advances
          | cons first others => exact advances

theorem afterAll_advances (remembers : matcher.Remembers rules count) {since : List Request}
    (noClear : .clear ∉ since) :
    Advances rules count (matcher.furthest since) (matcher.eventsAll since)
      (matcher.afterAll since) := by
  induction since generalizing matcher count with
  | nil => exact remembers.stays rfl
  | cons request later ih =>
      rw [List.mem_cons, not_or] at noClear
      have first := after_advances shallow remembers (Ne.symm noClear.1)
      have rest := ih first.remembers noClear.2
      rw [furthest, eventsAll]
      refine ⟨Nat.max_le.mpr ⟨first.within, rest.within⟩, ?_, ?_⟩
      · rw [← Nat.max_assoc]
        exact rest.remembers
      · rw [List.filter_append, ← List.append_assoc, first.complaints, ← Nat.max_assoc]
        exact rest.complaints

omit shallow

/-! ## What is remembered -/

/-- What a matcher remembers and has complained about: the rules in front of a place, each bad one
of them once and in their order. -/
structure Accounts (matcher : Matcher) (rules : RuleSet) (count : Nat) (events : List Event) :
    Prop where
  places : ∀ index, (matcher.cache.get? index).isSome ↔ index < count
  size : matcher.cache.size = count
  within : count ≤ rules.length
  complaints : events.filter Event.isGrave = (rules.take count).flatMap Rule.complaints

theorem Advances.accounts {stop : Nat} {events : List Event}
    (advances : Advances rules 0 stop events matcher) :
    matcher.Accounts rules stop events := by
  obtain ⟨within, ⟨-, follows⟩, complaints⟩ := advances
  rw [Nat.zero_max] at follows complaints
  refine ⟨fun index => ?_, ?_, within, complaints⟩
  · rw [follows.remembered, Option.isSome_map, PatternCache.isSome_firstOf, places_front within,
      List.mem_range]
  · rw [follows.size_eq, places_front within, (List.nodup_range).dedup, List.length_range]

/-- Memory follows its history.  A memory answers for a place with what comes of the first rule that
was presented there since it was cleared; it reads a rule, and complains about a bad one, exactly if
the rule is that first one; and it counts the places.  So a matcher remembers the front of its
rules, as far as any request since it was cleared has come, and has complained once about each bad
rule there.  (A new matcher is a cleared one.) -/
theorem memory_follows :
    (∀ rule : Rule, NestsWithin 80 rule.patternText →
      rule.compile.value = .ok rule.pattern? ∧ rule.compile.events ≠ [] ∧
        rule.complaints.length = if rule.pattern?.isSome then 0 else 1) ∧
    (∀ history : List PatternCache.Request,
      (∀ index rule, .get index rule ∈ history → NestsWithin 80 rule.patternText) →
        (PatternCache.empty.afterAll history).Recalls (PatternCache.presented history)) ∧
    ∀ rules : RuleSet, (∀ rule ∈ rules, NestsWithin 80 rule.patternText) →
      ∀ before since : List Request, .clear ∉ since →
        let start := ((ofRules rules).afterAll before).clear
        (start.afterAll since).Accounts rules (start.furthest since) (start.eventsAll since) := by
  refine ⟨?_, ?_, ?_⟩
  · intro rule shallow
    have notStuck := Path.ofText_ne_stuck shallow
    exact ⟨rule.compile_value shallow, Rule.events_compile_ne_nil notStuck,
      Rule.length_complaints notStuck⟩
  · intro history shallow
    exact (PatternCache.afterAll_follows PatternCache.follows_empty shallow).recalls
  · intro rules shallow before since noClear start
    have started : start.Remembers rules 0 :=
      remembers_clear (reachable_faithful shallow before).sameRules
    exact (afterAll_advances shallow started noClear).accounts

/-- The bad rule `w/@n` in front of `//p/@n`: the memory holds on to the first rule for a place, and
a matcher that was asked twice has complained once. -/
theorem memory_follows_skipping :
    let bad : Rule := ⟨[], "w", "@n", none, none⟩
    let good : Rule := ⟨[], "//p", "@n", none, none⟩
    let cache := PatternCache.empty.afterAll [.get 5 good, .clear, .get 0 bad, .get 7 good]
    let start := ((ofRules [bad, good, bad]).afterAll [.matching "/p" "n"]).clear
    let asked : List Request := [.find "/p" "n", .find "p" "n", .find "/p" "n"]
    (∀ rule ∈ [bad, good, bad], NestsWithin 80 rule.patternText) ∧
      cache.size = 2 ∧ (cache.getOrCompile 0 good).value.1 = .ok none ∧
      (cache.getOrCompile 0 good).events = [] ∧ .clear ∉ asked ∧
      (start.afterAll asked).Accounts [bad, good, bad] 2 (start.eventsAll asked) ∧
      ((start.eventsAll asked).filter Event.isGrave).length = 1 := by
  intro bad good cache start asked
  have shallow : ∀ rule ∈ [bad, good, bad], NestsWithin 80 rule.patternText := by decide +kernel
  have badShallow := shallow bad (.head _)
  have goodShallow := shallow good (.tail _ (.head _))
  have usable : bad.pattern?.isSome = false ∧ good.pattern?.isSome = true := by decide +kernel
  obtain ⟨rules, history, matcher⟩ := memory_follows
  have recalls : cache.Recalls [(0, bad), (7, good)] := by
    apply history
    intro index rule member
    simp only [List.mem_cons, PatternCache.Request.get.injEq, reduceCtorEq, List.not_mem_nil,
      or_false, false_or] at member
    rcases member with ⟨-, rfl⟩ | ⟨-, rfl⟩ | ⟨-, rfl⟩
    · exact goodShallow
    · exact badShallow
    · exact goodShallow
  have noClear : .clear ∉ asked := by simp [asked]
  have accounts : (start.afterAll asked).Accounts [bad, good, bad] (start.furthest asked)
      (start.eventsAll asked) :=
    matcher [bad, good, bad] shallow [.matching "/p" "n"] asked noClear
  have furthest : start.furthest asked = 2 := by decide +kernel
  rw [furthest] at accounts
  have isBad : bad.pattern? = none := Option.isNone_iff_eq_none.mp (by simpa using usable.1)
  refine ⟨shallow, recalls.size, ?_, ?_, noClear, accounts, ?_⟩
  · rw [recalls.answer 0 good goodShallow]
    exact congrArg Except.ok isBad
  · exact recalls.events 0 good
  · rw [accounts.complaints]
    have badOnce := (rules bad badShallow).2.2
    have goodNever := (rules good goodShallow).2.2
    rw [usable.1] at badOnce
    rw [usable.2] at goodNever
    simp [badOnce, goodNever]

end Matcher

end PathCover
