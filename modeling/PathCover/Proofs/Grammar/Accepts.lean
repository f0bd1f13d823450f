import PathCover.ParsedPath
import PathCover.Proofs.Grammar.Completeness
import PathCover.Proofs.Grammar.Meaning
import PathCover.Proofs.Grammar.Soundness
import PathCover.Proofs.Tree.Start

/-!
# The texts that are paths

Without limits a text is valid exactly if its tokens derive from the grammar and the derivation
means something.  Then the path read is what the derivation denotes, and all that is reported is one
warning for each predicate.
-/

namespace PathCover

/-! ## Meaning something -/

namespace Grammar

theorem StepBody.denotes_of {body : StepBody} {predicates : List Predicate}
    (axes : ∀ name ∈ (Step.mk body predicates).axisName?, ∃ axis : Axis,
      name.text = axis.render.toList)
    (kinds : ∀ test ∈ (Step.mk body predicates).kindTest?, test.Accepted) :
    ∃ meaning, body.Denotes meaning := by
  cases body with
  | self sign => exact ⟨_, .self sign⟩
  | parent sign => exact ⟨_, .parent sign⟩
  | tested mark test =>
      have accepted : ∃ meaning, test.Denotes meaning := by
        cases test with
        | name test => exact ⟨_, .name test⟩
        | kind test =>
            obtain ⟨kind, denotes⟩ := kinds test (by cases mark <;> rfl)
            exact ⟨_, .kind denotes⟩
      obtain ⟨meaning, denotes⟩ := accepted
      rcases mark with _ | sign | ⟨name, colons⟩
      · exact ⟨_, .implied denotes⟩
      · exact ⟨_, .short sign denotes⟩
      · obtain ⟨axis, known⟩ := axes name rfl
        exact ⟨_, .named name colons known denotes⟩

/-- A step means something exactly if its axis is known and its kind test takes its arguments. -/
theorem Step.denotes_iff (step : Step) : (∃ meaning, step.Denotes meaning) ↔
    (∀ name ∈ step.axisName?, ∃ axis : Axis, name.text = axis.render.toList) ∧
      ∀ test ∈ step.kindTest?, test.Accepted := by
  obtain ⟨body, predicates⟩ := step
  constructor
  · rintro ⟨meaning, denotes⟩
    have kinds : ∀ {mark : Option AxisMark} {test : NodeTest} {accepted : PathCover.NodeTest},
        test.Denotes accepted →
          ∀ given ∈ (Step.mk (.tested mark test) predicates).kindTest?, given.Accepted := by
      rintro mark _ _ (_ | denotes) given isGiven
      · cases isGiven
      · cases isGiven
        exact ⟨_, denotes⟩
    cases denotes with
    | self => exact ⟨by rintro _ ⟨⟩, by rintro _ ⟨⟩⟩
    | parent => exact ⟨by rintro _ ⟨⟩, by rintro _ ⟨⟩⟩
    | implied meaning => exact ⟨by rintro _ ⟨⟩, kinds meaning⟩
    | short sign meaning => exact ⟨by rintro _ ⟨⟩, kinds meaning⟩
    | @named _ _ axis name colons known meaning =>
        refine ⟨?_, kinds meaning⟩
        rintro _ ⟨rfl⟩
        exact ⟨axis, known⟩
  · rintro ⟨axes, kinds⟩
    exact StepBody.denotes_of axes kinds

theorem later_denote_iff (later : List LaterStep) : (∃ path, LaterDenote later path) ↔
    ∀ step ∈ later.map Prod.snd, ∃ meaning, step.Denotes meaning := by
  induction later with
  | nil =>
      refine ⟨fun _ step member => ?_, fun _ => ⟨[], .nil⟩⟩
      cases member
  | cons first rest ih =>
      obtain ⟨separator, step⟩ := first
      rw [List.map_cons, List.forall_mem_cons, ← ih]
      constructor
      · rintro ⟨_, denote⟩
        cases denote with
        | cons _ first rest => exact ⟨⟨_, first⟩, ⟨_, rest⟩⟩
      · rintro ⟨⟨meaning, first⟩, ⟨path, rest⟩⟩
        exact ⟨_, .cons separator first rest⟩

/-- A derivation is accepted exactly if it denotes a path. -/
theorem Path.accepted_iff (path : Path) : path.Accepted ↔ ∃ meaning, path.Denotes meaning := by
  have each : path.Accepted ↔ ∀ step ∈ path.allSteps, ∃ meaning, step.Denotes meaning := by
    simp only [Step.denotes_iff]
    exact ⟨fun accepted step member => ⟨accepted.axes step member, accepted.kinds step member⟩,
      fun all => ⟨fun step member => (all step member).1, fun step member => (all step member).2⟩⟩
  rw [each]
  cases path with
  | root slash =>
      refine ⟨fun _ => ⟨_, .root slash⟩, fun _ step member => ?_⟩
      cases member
  | steps leading first later =>
      rw [allSteps, List.forall_mem_cons, ← later_denote_iff]
      constructor
      · rintro ⟨⟨meaning, first⟩, ⟨path, rest⟩⟩
        exact ⟨_, .steps leading first rest⟩
      · rintro ⟨_, denotes⟩
        cases denotes with
        | steps _ first rest => exact ⟨⟨_, first⟩, ⟨_, rest⟩⟩

end Grammar

/-! ## Reading a text -/

namespace Tree

theorem Reader.calm_ofText (text : String) : (Reader.ofText .none text).Calm 0 :=
  ⟨rfl, rfl, rfl, rfl, Nat.le_refl 0⟩

theorem readText_complete {text : String} {derived : Grammar.Path}
    (derives : derived.lexemes = Token.significant text) :
    (readText .none text).2.Calm 3 ∧ ∃ given : Path,
      (readText .none text).1.path = some given ∧ PartsShow given.parts derived := by
  have arrives := root_complete ((Token.significant text).length + 1) derived
    (by rw [derives]; exact Nat.lt_succ_self _)
    ((Reader.lexemes_ofText .none text).trans derives.symm) (Reader.calm_ofText text)
  exact ⟨arrives.calm, arrives.holds.2⟩

theorem readText_sound {limits : Limits} {text : String}
    (clean : (readText limits text).2.Clean) :
    ∃ (given : Path) (derived : Grammar.Path), (readText limits text).1.path = some given ∧
      PartsShow given.parts derived ∧ derived.lexemes = Token.significant text := by
  have ran : readText limits text = ((readText limits text).1, (readText limits text).2) := rfl
  obtain ⟨-, given, derived, isPath, shown, consumed⟩ := root_sound ran clean
  exact ⟨given, derived, isPath, shown, consumed.symm.trans (Reader.lexemes_ofText limits text)⟩

/-- A reader that has not left out its only report. -/
def Reader.Honest (reader : Reader) : Prop :=
  reader.reported.isSome = true → ∃ diagnostic ∈ reader.report, diagnostic.isError = true

theorem Moves.honest {first second : Reader} (moves : Moves first second)
    (honest : first.Honest) : second.Honest := by
  induction moves with
  | done => exact honest
  | look _ ih => exact ih
  | advance _ _ ih => simpa [Reader.Honest] using ih
  | exceed _ _ ih => exact ih
  | placeBlanks _ ih => simpa [Reader.Honest] using ih
  | @note reader _ place diagnostic error ih =>
      intro _
      by_cases again : reader.reported = some place
      · obtain ⟨earlier, member, isError⟩ := ih (by rw [again]; rfl)
        exact ⟨earlier, by rw [Reader.report_note, if_pos again]; exact member, isError⟩
      · refine ⟨diagnostic, ?_, error⟩
        rw [Reader.report_note, if_neg again]
        exact List.mem_append_right _ (List.mem_singleton.mpr rfl)

end Tree

/-! ## Texts -/

theorem Report.hasErrors_eq_false {report : Report} :
    report.hasErrors = false ↔ ∀ diagnostic ∈ report, diagnostic.isError = false := by
  simp [Report.hasErrors, Report.errorCount]

namespace ParsedPath

variable {text : String}

/-- A text whose tokens derive from the grammar with a meaning has that meaning, and nothing is
reported but a warning for each predicate. -/
theorem parse_of_denotes {derived : Grammar.Path} {path : Path}
    (derives : derived.lexemes = Token.significant text) (denotes : derived.Denotes path) :
    ∃ parsed, parse .none text = .ok parsed ∧ parsed.path = path ∧
      ∃ ignored : List Tree.Predicate, ignored.length = derived.predicates.length ∧
        parsed.report = ignored.map Tree.Predicate.ignored := by
  obtain ⟨calm, given, isPath, shown⟩ := Tree.readText_complete derives
  have parts : (Tree.readText .none text).1.parts = given.parts := by
    rw [Tree.Root.parts, isPath]
  obtain ⟨ignored, sameLength, report⟩ := shown.report_eq denotes
  refine ⟨_, parse_eq_read.mpr ⟨calm.free, calm.within, rfl⟩, ?_, ignored, sameLength, ?_⟩
  · show Tree.meaningOfParts (Tree.readText .none text).1.parts = path
    rw [parts]
    exact shown.meaning_eq denotes
  · show (Tree.readText .none text).2.report ++
      (Tree.readText .none text).1.parts.flatMap Tree.PathPart.report = _
    rw [parts, report, calm.silent, List.nil_append]

/-- A valid text is read cleanly. -/
theorem clean_of_parse {limits : Tree.Limits} {parsed : ParsedPath}
    (isParsed : parse limits text = .ok parsed) (valid : parsed.isValid = true) :
    (Tree.readText limits text).2.Clean := by
  obtain ⟨-, within, rfl⟩ := parse_eq_read.mp isParsed
  have harmless := Report.hasErrors_eq_false.mp (Bool.not_eq_true' _ |>.mp valid)
  simp only [ofParsed, List.mem_append] at harmless
  have moves := Tree.moves_root ((Token.significant text).length + 1) (.ofText limits text)
  have honest : (Tree.readText limits text).2.Honest := moves.honest (by rintro ⟨⟩)
  refine ⟨?_, within⟩
  rw [← Option.not_isSome_iff_eq_none]
  intro reported
  obtain ⟨diagnostic, member, isError⟩ := honest reported
  rw [harmless diagnostic (.inl member)] at isError
  cases isError

/-- The tree of a valid text shows a derivation of its tokens, and its path is what the derivation
denotes. -/
theorem shown_of_parse {limits : Tree.Limits} {parsed : ParsedPath}
    (isParsed : parse limits text = .ok parsed) (valid : parsed.isValid = true) :
    ∃ derived : Grammar.Path, derived.lexemes = Token.significant text ∧
      Tree.PartsShow parsed.root.parts derived ∧ derived.Denotes parsed.path := by
  obtain ⟨given, derived, isPath, shown, derives⟩ :=
    Tree.readText_sound (clean_of_parse isParsed valid)
  obtain ⟨-, -, rfl⟩ := parse_eq_read.mp isParsed
  have harmless := Report.hasErrors_eq_false.mp (Bool.not_eq_true' _ |>.mp valid)
  simp only [ofParsed, List.mem_append] at harmless
  have parts : (Tree.readText limits text).1.parts = given.parts := by
    rw [Tree.Root.parts, isPath]
  rw [← parts] at shown
  obtain ⟨path, denotes⟩ := shown.denotes fun diagnostic member =>
    harmless diagnostic (.inr member)
  refine ⟨derived, derives, shown, ?_⟩
  rw [ofParsed, Tree.Root.meaning, shown.meaning_eq denotes]
  exact denotes

/-- A valid text derives from the grammar, and its path is what the derivation denotes. -/
theorem denotes_of_parse {limits : Tree.Limits} {parsed : ParsedPath}
    (isParsed : parse limits text = .ok parsed) (valid : parsed.isValid = true) :
    ∃ derived : Grammar.Path, derived.lexemes = Token.significant text ∧
      derived.Denotes parsed.path := by
  obtain ⟨derived, derives, -, denotes⟩ := shown_of_parse isParsed valid
  exact ⟨derived, derives, denotes⟩

/-- A text is a path exactly if its tokens derive from the grammar, every axis is known and every
kind test of a step takes its arguments. -/
theorem valid_iff_derives (text : String) :
    (∃ parsed, parse .none text = .ok parsed ∧ parsed.isValid = true) ↔
      ∃ derived : Grammar.Path, derived.lexemes = Token.significant text ∧ derived.Accepted := by
  simp only [Grammar.Path.accepted_iff]
  constructor
  · rintro ⟨parsed, isParsed, valid⟩
    obtain ⟨derived, derives, denotes⟩ := denotes_of_parse isParsed valid
    exact ⟨derived, derives, _, denotes⟩
  · rintro ⟨derived, derives, path, denotes⟩
    obtain ⟨parsed, isParsed, -, ignored, -, report⟩ := parse_of_denotes derives denotes
    refine ⟨parsed, isParsed, ?_⟩
    have harmless : parsed.report.hasErrors = false := by
      rw [Report.hasErrors_eq_false, report]
      intro diagnostic member
      obtain ⟨predicate, -, rfl⟩ := List.mem_map.mp member
      rfl
    rw [isValid, harmless]
    rfl

end ParsedPath

end PathCover
