import PathCover.Proofs.Tree.Limits
import PathCover.Proofs.Tree.Patience

/-!
# The texts that limits admit

A text is read within its limits exactly if it has no more tokens than may be consumed and the
groups of its unlimited tree nest no deeper than may be open at once.  Then the limits make no
difference.  So higher limits give back whatever lower ones gave.
-/

namespace PathCover

namespace Tree

/-- What a reader records about its limits is true: it has consumed more tokens than it may if it
hit their limit and no more than it may if it hit none, and it has a depth limit if it hit that. -/
structure Reader.Accounted (reader : Reader) : Prop where
  charged : reader.exceeded = none → reader.limits.AdmitsTokens reader.consumed
  overcharged : reader.exceeded = some .tokens → ¬ reader.limits.AdmitsTokens reader.consumed
  limited : reader.exceeded = some .depth → reader.limits.depth ≠ none

namespace Reader.Accounted

variable {reader : Reader}

theorem exceed (accounted : reader.Accounted) (limited : reader.limits.depth ≠ none) :
    (reader.exceed .depth).Accounted := by
  constructor
  · intro within
    exact absurd within (Reader.exceeded_exceed reader .depth)
  · intro isTokens
    apply accounted.overcharged
    cases earlier : reader.exceeded <;> simp_all [Reader.exceed]
  · intro _
    exact limited

theorem step (accounted : reader.Accounted) : reader.step.Accounted := by
  cases spent : reader.isSpent with
  | false =>
      have admits := Reader.isSpent_eq_false_iff.mp spent
      have exceeded : reader.step.exceeded = reader.exceeded := by simp [Reader.step, spent]
      constructor
      · intro _
        rw [Reader.limits_step, Reader.consumed_step]
        exact admits
      · intro isTokens
        rw [exceeded] at isTokens
        exact absurd (admits.mono (Nat.le_succ _)) (accounted.overcharged isTokens)
      · rw [exceeded, Reader.limits_step]
        exact accounted.limited
  | true =>
      have exceeded : reader.step.exceeded = (reader.exceeded <|> some .tokens) := by
        simp [Reader.step, spent, Reader.exceed]
      constructor
      · intro within
        rw [exceeded] at within
        cases earlier : reader.exceeded <;> simp [earlier] at within
      · intro _ admits
        rw [Reader.limits_step, Reader.consumed_step] at admits
        rw [Reader.isSpent_eq_false_iff.mpr admits] at spent
        cases spent
      · intro isDepth
        rw [exceeded] at isDepth
        rw [Reader.limits_step]
        apply accounted.limited
        cases earlier : reader.exceeded <;> simp_all

theorem placeBlanks (accounted : reader.Accounted) : reader.placeBlanks.Accounted := by
  constructor
  · rw [Reader.exceeded_placeBlanks, Reader.limits_placeBlanks, Reader.consumed_placeBlanks]
    exact accounted.charged
  · rw [Reader.exceeded_placeBlanks, Reader.limits_placeBlanks, Reader.consumed_placeBlanks]
    exact accounted.overcharged
  · rw [Reader.exceeded_placeBlanks, Reader.limits_placeBlanks]
    exact accounted.limited

/-- Where the tokens are within their limit, only the depth limit is hit. -/
theorem exceeded_eq_depth (accounted : reader.Accounted)
    (admits : reader.limits.AdmitsTokens reader.consumed) (hit : reader.exceeded ≠ none) :
    reader.exceeded = some .depth := by
  cases isHit : reader.exceeded with
  | none => exact absurd isHit hit
  | some limit =>
      cases limit with
      | tokens => exact absurd admits (accounted.overcharged isHit)
      | depth => rfl

/-- Without limits none is hit. -/
theorem exceeded_eq_none (accounted : reader.Accounted) (unlimited : reader.limits = .none) :
    reader.exceeded = none := by
  apply Classical.byContradiction
  intro hit
  have admits : reader.limits.AdmitsTokens reader.consumed := by
    intro most isMost
    rw [unlimited] at isMost
    cases isMost
  apply accounted.limited (accounted.exceeded_eq_depth admits hit)
  rw [unlimited]
  rfl

end Reader.Accounted

theorem Moves.accounted {first reader : Reader} (moves : Moves first reader)
    (accounted : first.Accounted) : reader.Accounted := by
  induction moves with
  | done => exact accounted
  | look _ ih => exact ⟨ih.charged, ih.overcharged, ih.limited⟩
  | advance _ _ ih => exact ih.step
  | exceed _ limited ih => exact ih.exceed limited
  | placeBlanks _ ih => exact ih.placeBlanks
  | note _ _ _ _ ih => exact ⟨ih.charged, ih.overcharged, ih.limited⟩

/-! ## A whole text -/

section Text

variable {limits : Limits} {text : String}

theorem moves_readText (limits : Limits) (text : String) :
    Moves (.ofText limits text) (readText limits text).2 :=
  moves_root _ _

theorem accounted_readText (limits : Limits) (text : String) :
    (readText limits text).2.Accounted := by
  apply (moves_readText limits text).accounted
  constructor
  · intro _ most _
    exact Nat.zero_le most
  · intro isHit
    cases isHit
  · intro isHit
    cases isHit

theorem exceeded_readText_none (text : String) : (readText .none text).2.exceeded = none :=
  (accounted_readText .none text).exceeded_eq_none (moves_readText .none text).limits

theorem rest_forM_advance (leaves : List Leaf) (reader : Reader) :
    ((leaves.forM fun _ => advance).run reader).2.rest = reader.rest.drop leaves.length := by
  induction leaves generalizing reader with
  | nil => rfl
  | cons leaf leaves ih =>
      have later := ih reader.step
      rw [Reader.rest_step, List.drop_tail] at later
      exact later

/-- Reading stops early only at a limit. -/
theorem rest_root (fuel : Nat) (reader : Reader)
    (within : ((root fuel).run reader).2.exceeded = none) :
    ((root fuel).run reader).2.rest = [] := by
  simp only [root, run_bind, run_get, run_pure] at within ⊢
  generalize ((pathIfAny fuel).run reader).2 = behind at within ⊢
  rw [surplusIfAny, run_ifEnded] at within ⊢
  split
  · rename_i isEnded
    rw [if_pos isEnded] at within
    have notHit : behind.exceeded = none := within
    show behind.rest = []
    simpa [Reader.hasEnded, notHit] using isEnded
  · simp only [run_bind, run_pure, surplus, run_takeBlanks, run_offset, run_get]
    rw [rest_forM_advance, List.drop_length]

theorem length_rest_ofText (limits : Limits) (text : String) :
    (Reader.ofText limits text).rest.length = (Token.significant text).length := by
  rw [← Reader.lexemes_ofText limits, Reader.lexemes, List.length_map]

/-- Where no limit is hit, every token of the text is consumed. -/
theorem consumed_readText (within : (readText limits text).2.exceeded = none) :
    (readText limits text).2.consumed = (Token.significant text).length := by
  have count := (moves_readText limits text).count
  have nothingLeft : (readText limits text).2.rest = [] := rest_root _ _ within
  rw [length_rest_ofText, nothingLeft] at count
  exact count.trans (Nat.zero_add _)

/-- How deep the groups of a text nest in its unlimited tree. -/
def nesting (text : String) : Nat := (readText .none text).1.element.nesting

/-- The limits that leave room for all tokens and groups of a text. -/
structure Limits.Admits (limits : Limits) (text : String) : Prop where
  tokens : limits.AdmitsTokens (Token.significant text).length
  depth : limits.AdmitsDepth (nesting text)

theorem Reader.hasRoom_ofText (admits : limits.AdmitsTokens (Token.significant text).length) :
    (Reader.ofText limits text).HasRoom := by
  rw [Reader.HasRoom, length_rest_ofText]
  show limits.AdmitsTokens (0 + (Token.significant text).length)
  rw [Nat.zero_add]
  exact admits

theorem obeys_ofText (admits : limits.AdmitsTokens (Token.significant text).length) :
    Obeys (root ((Token.significant text).length + 1)) (fun root => root.element.nesting)
      (.ofText limits text) := by
  apply obeys_root
  constructor
  · exact Reader.hasRoom_ofText admits
  · intro most _
    exact Nat.zero_le most

/-- Limits that admit a text make no difference to its reader. -/
theorem readText_none (admitted : limits.Admits text) :
    readText .none text = ((readText limits text).1, (readText limits text).2.unlimited) :=
  ((obeys_ofText admitted.tokens).agrees admitted.depth).unlimited

/-- No limit is hit exactly if the limits admit the text. -/
theorem exceeded_readText :
    (readText limits text).2.exceeded = none ↔ limits.Admits text := by
  constructor
  · intro within
    have tokens : limits.AdmitsTokens (Token.significant text).length := by
      have charged := (accounted_readText limits text).charged within
      rw [consumed_readText within, (moves_readText limits text).limits] at charged
      exact charged
    refine ⟨tokens, ?_⟩
    apply Classical.byContradiction
    intro tooDeep
    have hit : (readText limits text).2.exceeded.isSome = true :=
      (obeys_ofText tokens).exceeds tooDeep
    rw [within] at hit
    cases hit
  · intro admitted
    have within := exceeded_readText_none text
    rw [readText_none admitted] at within
    exact within

/-- Where only the groups of a text are too many, it is the depth limit that is hit. -/
theorem exceeded_readText_depth (tokens : limits.AdmitsTokens (Token.significant text).length)
    (deeper : ¬ limits.AdmitsDepth (nesting text)) :
    (readText limits text).2.exceeded = some .depth := by
  apply (accounted_readText limits text).exceeded_eq_depth
  · have count := (moves_readText limits text).count
    rw [length_rest_ofText] at count
    rw [(moves_readText limits text).limits]
    exact tokens.mono (Nat.le_of_add_right_le (Nat.le_of_eq (count.trans (Nat.zero_add _))))
  · intro within
    exact deeper (exceeded_readText.mp within).depth

/-- The texts that are parsed under given limits are those that are parsed without limits and
admitted by them.  The limits show only in the number of tokens that is counted. -/
theorem parse_eq_ok {parsed : Parsed} :
    parse limits text = .ok parsed ↔ limits.Admits text ∧ ∃ free, parse .none text = .ok free ∧
      parsed = { free with
        consumed := if limits.tokens.isSome then (Token.significant text).length else 0 } := by
  have sameLimits : (readText limits text).2.limits = limits :=
    (moves_readText limits text).limits
  rw [parse_eq, outcome_eq_ok, exceeded_readText, sameLimits]
  constructor
  · intro ⟨free, admitted, isParsed⟩
    refine ⟨admitted, ⟨(readText limits text).1, (readText limits text).2.report, 0⟩, ?_, ?_⟩
    · rw [parse_eq, readText_none admitted, outcome_eq_ok]
      exact ⟨free, exceeded_readText.mpr admitted, rfl⟩
    · rw [← isParsed, consumed_readText (exceeded_readText.mpr admitted)]
  · intro ⟨admitted, free, isFree, isParsed⟩
    rw [parse_eq, readText_none admitted, outcome_eq_ok] at isFree
    obtain ⟨notStuck, _, rfl⟩ := isFree
    refine ⟨notStuck, admitted, ?_⟩
    rw [isParsed, consumed_readText (exceeded_readText.mpr admitted)]
    rfl

/-- Limits of which each is at least as high as one of the other limits, or absent. -/
structure Limits.Below (limits wider : Limits) : Prop where
  tokens : ∀ most ∈ wider.tokens, ∃ less ∈ limits.tokens, less ≤ most
  depth : ∀ most ∈ wider.depth, ∃ less ∈ limits.depth, less ≤ most

theorem Limits.Admits.mono {wider : Limits} (admitted : limits.Admits text)
    (below : limits.Below wider) : wider.Admits text := by
  constructor
  · intro most isMost
    obtain ⟨less, isLess, atMost⟩ := below.tokens most isMost
    exact Nat.le_trans (admitted.tokens less isLess) atMost
  · intro most isMost
    obtain ⟨less, isLess, atMost⟩ := below.depth most isMost
    exact Nat.le_trans (admitted.depth less isLess) atMost

end Text

end Tree

namespace ParsedPath

/-- A parsed text with the number of tokens that given limits make the reader count. -/
def counted (limits : Tree.Limits) (parsed : ParsedPath) : ParsedPath :=
  { parsed with
    consumed := if limits.tokens.isSome then (Token.significant parsed.text).length else 0 }

theorem parse_eq_counted {limits : Tree.Limits} {text : String} {parsed : ParsedPath} :
    parse limits text = .ok parsed ↔ limits.Admits text ∧
      ∃ free, parse .none text = .ok free ∧ parsed = free.counted limits := by
  simp only [parse_eq_ofParsed]
  constructor
  · rintro ⟨tree, isRead, rfl⟩
    obtain ⟨admitted, free, isFree, rfl⟩ := Tree.parse_eq_ok.mp isRead
    exact ⟨admitted, ofParsed text free, ⟨free, isFree, rfl⟩, rfl⟩
  · rintro ⟨admitted, _, ⟨free, isFree, rfl⟩, rfl⟩
    exact ⟨_, Tree.parse_eq_ok.mpr ⟨admitted, free, isFree, rfl⟩, rfl⟩

/-- Higher limits give back what lower ones gave. -/
theorem parse_below {limits wider : Tree.Limits} {text : String} {parsed : ParsedPath}
    (below : limits.Below wider) (isParsed : parse limits text = .ok parsed) :
    parse wider text = .ok (parsed.counted wider) := by
  obtain ⟨admitted, free, isFree, rfl⟩ := parse_eq_counted.mp isParsed
  exact parse_eq_counted.mpr ⟨admitted.mono below, free, isFree, rfl⟩

theorem nesting_eq {text : String} {free : ParsedPath} (isFree : parse .none text = .ok free) :
    free.root.element.nesting = Tree.nesting text := by
  obtain ⟨-, -, rfl⟩ := parse_eq_read.mp isFree
  rfl

/-- Limits are exact and make no other difference.  A reader under a depth limit of at most 83 is
never stuck.  A text is parsed under limits exactly if it is parsed without them, has no more tokens
than may be consumed and groups that nest no deeper than may be open at once, and then only the
number of counted tokens tells the two apart.  Higher limits change no successful result. -/
theorem parse_exact (limits : Tree.Limits) (text : String) :
    ((∃ depth ≤ 83, limits.depth = some depth) → parse limits text ≠ .error .stuck) ∧
    (∀ parsed, parse limits text = .ok parsed ↔
      ∃ free, parse .none text = .ok free ∧
        (∀ most ∈ limits.tokens, (Token.significant text).length ≤ most) ∧
        (∀ most ∈ limits.depth, free.root.element.nesting ≤ most) ∧
        parsed = free.counted limits) ∧
    ∀ wider, limits.Below wider → ∀ parsed, parse limits text = .ok parsed →
      parse wider text = .ok (parsed.counted wider) := by
  refine ⟨?_, ?_, ?_⟩
  · intro shallow isStuck
    exact Tree.parse_ne_stuck limits text (.inl shallow) (parse_eq_error.mp isStuck)
  · intro parsed
    rw [parse_eq_counted]
    constructor
    · rintro ⟨admitted, free, isFree, same⟩
      refine ⟨free, isFree, admitted.tokens, ?_, same⟩
      rw [nesting_eq isFree]
      exact admitted.depth
    · rintro ⟨free, isFree, tokens, depth, same⟩
      rw [nesting_eq isFree] at depth
      exact ⟨⟨tokens, depth⟩, free, isFree, same⟩
  · intro wider below parsed isParsed
    exact parse_below below isParsed

theorem parse_exact_predicate :
    parse ⟨some 5, some 1⟩ "/a[1]" ≠ .error .stuck ∧
    ∃ parsed, parse ⟨some 5, some 1⟩ "/a[1]" = .ok parsed ∧
      parse .standard "/a[1]" = .ok (parsed.counted .standard) := by
  obtain ⟨notStuck, _, raised⟩ := parse_exact ⟨some 5, some 1⟩ "/a[1]"
  have isOk : (parse ⟨some 5, some 1⟩ "/a[1]").toOption.isSome = true := by decide +kernel
  obtain ⟨parsed, isParsed⟩ : ∃ parsed, parse ⟨some 5, some 1⟩ "/a[1]" = .ok parsed := by
    cases found : parse ⟨some 5, some 1⟩ "/a[1]" with
    | error failure => simp [found, Except.toOption] at isOk
    | ok parsed => exact ⟨parsed, rfl⟩
  refine ⟨notStuck ⟨1, by decide, rfl⟩, parsed, isParsed, ?_⟩
  refine raised .standard ⟨?_, ?_⟩ parsed isParsed
  · intro most isMost
    cases isMost
    exact ⟨5, rfl, by decide⟩
  · intro most isMost
    cases isMost
    exact ⟨1, rfl, by decide⟩

end ParsedPath

end PathCover
