import PathCover.Proofs.Grammar.Soundness
import PathCover.Proofs.Token.Splice
import PathCover.Proofs.Tree.Lossless

/-!
# The tokens of a clean tree

In the tree of a text that is read cleanly the tokens stand where the grammar has them: what is kept
in front of a part are blanks and nothing else, a predicate starts with its bracket, and the other
tokens of a step, blanks aside, are those of a derivation that the step shows.
-/

namespace PathCover.Tree

open Element
open Token (seen)

/-- Tokens that only separate others. -/
def AreBlank (tokens : List Token) : Prop := ∀ token ∈ tokens, token.kind.isTrivia = true

theorem AreBlank.ne {tokens : List Token} (blank : AreBlank tokens) {kind : TokenKind}
    (visible : kind.isTrivia = false) : ∀ token ∈ tokens, token.kind ≠ kind := by
  rintro token member rfl
  rw [blank token member] at visible
  cases visible

/-! ## Readers -/

/-- A reader that has told blanks from other tokens. -/
structure Reader.Spaced (reader : Reader) : Prop where
  blanks : ∀ leaf ∈ reader.rest, AreBlank leaf.blanks
  visible : reader.Visible
  trail : AreBlank reader.trail

variable {reader later : Reader}

theorem Reader.Spaced.spend (spaced : reader.Spaced) : reader.spend.Spaced :=
  ⟨spaced.blanks, spaced.visible, spaced.trail⟩

theorem Reader.Spaced.step (spaced : reader.Spaced) : reader.step.Spaced := by
  refine ⟨?_, ?_, ?_⟩
  · intro leaf member
    rw [Reader.rest_step] at member
    exact spaced.blanks leaf (List.mem_of_mem_tail member)
  · intro leaf member
    rw [Reader.rest_step] at member
    exact spaced.visible leaf (List.mem_of_mem_tail member)
  · rw [Reader.trail_step]
    exact spaced.trail

theorem Reader.Spaced.placeBlanks (spaced : reader.Spaced) : reader.placeBlanks.Spaced := by
  refine ⟨?_, Reader.visible_placeBlanks spaced.visible, ?_⟩
  · cases rest : reader.rest with
    | nil => simp [Reader.placeBlanks, takeBlanks, rest, StateT.run]
    | cons leaf tail =>
        have others := spaced.blanks
        rw [rest, List.forall_mem_cons] at others
        simpa [Reader.placeBlanks, takeBlanks, rest, StateT.run, Leaf.bare, AreBlank]
          using others.2
  · rw [Reader.trail_placeBlanks]
    exact spaced.trail

theorem Moves.spaced {first second : Reader} (moves : Moves first second)
    (spaced : first.Spaced) : second.Spaced := by
  induction moves with
  | done => exact spaced
  | look _ ih => exact ih.spend
  | advance _ _ ih => exact ih.step
  | exceed _ _ ih => exact ⟨ih.blanks, ih.visible, ih.trail⟩
  | placeBlanks _ ih => exact ih.placeBlanks
  | note _ _ _ _ ih => exact ⟨ih.blanks, ih.visible, ih.trail⟩

theorem Reader.Spaced.after {α : Type} {reading : Reading α} {value : α}
    (spaced : reader.Spaced) (moves : ∀ reader, Moves reader (reading.run reader).2)
    (ran : reading.run reader = (value, later)) : later.Spaced :=
  (Moves.ofRan (moves reader) ran).spaced spaced

theorem Reader.Spaced.head {leaf : Leaf} (spaced : reader.Spaced)
    (next : reader.rest.head? = some leaf) : AreBlank leaf.blanks :=
  spaced.blanks leaf (List.mem_of_mem_head? next)

theorem Reader.Spaced.frontBlanks (spaced : reader.Spaced) : AreBlank reader.frontBlanks := by
  cases next : reader.rest.head? with
  | none =>
      rw [List.head?_eq_none_iff] at next
      simp [Reader.frontBlanks, takeBlanks, next, StateT.run, AreBlank]
  | some leaf =>
      rw [Reader.frontBlanks_of_head next]
      exact spaced.head next

/-- What such a reader shows to the grammar are the tokens that it has left. -/
theorem Reader.Spaced.seen_tokens (spaced : reader.Spaced) :
    seen reader.tokens = reader.lexemes := by
  have each : ∀ leaves : List Leaf,
      (∀ leaf ∈ leaves, AreBlank leaf.blanks) → (∀ leaf ∈ leaves, leaf.kind ≠ .whitespace) →
      seen (leaves.flatMap Leaf.tokens) = leaves.map Leaf.lexeme := by
    intro leaves blank visible
    induction leaves with
    | nil => rfl
    | cons leaf leaves ih =>
        rw [List.forall_mem_cons] at blank visible
        have notBlank : leaf.token.kind.isTrivia = false :=
          TokenKind.isTrivia_eq_false_iff.mpr visible.1
        rw [List.flatMap_cons, Token.seen_append, ih blank.2 visible.2, Leaf.tokens,
          Token.seen_append, Token.seen_eq_nil blank.1, Token.seen_cons, notBlank]
        rfl
  rw [Reader.tokens, Token.seen_append, Token.seen_eq_nil spaced.trail, List.append_nil]
  exact each reader.rest spaced.blanks spaced.visible

/-- What is consumed is seen in the elements. -/
theorem Keeps.seen_leaves {elements : List Element} {derived : List Token.Lexeme}
    (keeps : Keeps reader elements later) (spaced : reader.Spaced) (moves : Moves reader later)
    (consumed : reader.lexemes = derived ++ later.lexemes) :
    seen (leavesOf elements) = derived := by
  have all := congrArg seen keeps.tokens
  rw [Token.seen_append, spaced.seen_tokens, (moves.spaced spaced).seen_tokens, consumed] at all
  exact List.append_cancel_right all

theorem areBlank_attachBlanks (tokens : List Token) :
    (∀ leaf ∈ (attachBlanks tokens).1, AreBlank leaf.blanks) ∧
      AreBlank (attachBlanks tokens).2 := by
  induction tokens with
  | nil => simp [attachBlanks, AreBlank]
  | cons token tokens ih =>
      cases attached : attachBlanks tokens with
      | mk leaves trail =>
          rw [attached] at ih
          cases trivia : token.kind.isTrivia <;> cases leaves <;>
            simp only [attachBlanks, attached, trivia, AreBlank] at ih ⊢ <;> grind

theorem Reader.spaced_ofText (limits : Limits) (text : String) :
    (Reader.ofText limits text).Spaced :=
  ⟨(areBlank_attachBlanks _).1, Reader.visible_ofText limits text, (areBlank_attachBlanks _).2⟩

/-! ## Parts of a path -/

/-- A predicate whose bracket follows on blanks. -/
structure Predicate.Neat (predicate : Predicate) : Prop where
  lead : AreBlank predicate.lead
  bare : predicate.opener.blanks = []
  opens : predicate.opener.kind = .bracketOpen

/-- A step that shows a derivation by the tokens of its body. -/
structure Step.Neat (step : Step) : Prop where
  lead : AreBlank step.lead
  body : ∃ derived : Grammar.StepBody,
    step.body.Shows derived ∧ seen (leavesOf step.body.elements) = derived.lexemes
  predicates : ∀ predicate ∈ step.predicates, predicate.Neat

def PathPart.Neat : PathPart → Prop
  | .separator part => AreBlank part.blanks ∧ part.kind.isSeparator = true
  | .step part => part.Neat

theorem predicateWith_starts {inner : Reading (List PredicateItem)} {depth : Nat} {opener : Leaf}
    {found : Option Predicate}
    (ran : (predicateWith inner depth opener).run reader = (found, later)) :
    ∀ predicate ∈ found, predicate.lead = opener.blanks ∧ predicate.opener = opener.bare := by
  rw [predicateWith, run_bind] at ran
  rcases run_mayOpen depth reader with opened | refused
  · simp only [opened, if_true, look_then, advance_then] at ran
    obtain ⟨items, middle, -, ran⟩ := ran_bind ran
    obtain ⟨closer, final, -, ran⟩ := ran_bind ran
    obtain ⟨rfl, -⟩ := ran_pure ran
    rintro _ ⟨rfl⟩
    exact ⟨rfl, rfl⟩
  · simp only [refused, Bool.false_eq_true, if_false] at ran
    obtain ⟨rfl, -⟩ := ran_pure ran
    simp

theorem predicates_neat {fuel : Nat} {found : List Predicate}
    (ran : (predicates fuel).run reader = (found, later)) (spaced : reader.Spaced) :
    ∀ predicate ∈ found, predicate.Neat := by
  induction fuel generalizing reader later found with
  | zero =>
      obtain ⟨rfl, -⟩ := ran_pure ran
      simp
  | succ fuel ih =>
      simp only [predicates, run_ifHalted] at ran
      split at ran
      · obtain ⟨rfl, -⟩ := ran_pure ran
        simp
      simp only [lookFor_then] at ran
      split at ran
      · obtain ⟨rfl, -⟩ := ran_pure ran
        simp
      rename_i opener inView
      obtain ⟨next, isOpener⟩ := head_of_filter (fun other => decide (other = .bracketOpen)) inView
      obtain ⟨predicate, middle, ranPredicate, ran⟩ := ran_bind ran
      obtain ⟨rest, final, ranRest, ran⟩ := ran_bind ran
      obtain ⟨rfl, -⟩ := ran_pure ran
      have starts := predicateWith_starts ranPredicate
      have inner : ∀ inside, Moves inside ((predicateItems fuel 1).run inside).2 :=
        moves_predicateItems fuel 1
      have moves := moves_predicateWith 0 opener reader.spend (rest_ne_nil_of_filter inView) inner
      have middleSpaced := (moves.ofRan ranPredicate).spaced spaced.spend
      have later := ih ranRest middleSpaced
      intro one member
      rcases List.mem_append.mp member with isFirst | isLater
      · obtain ⟨lead, bracket⟩ := starts one (Option.mem_toList.mp isFirst)
        refine ⟨?_, ?_, ?_⟩
        · rw [lead]
          exact spaced.head next
        · rw [bracket]
          rfl
        · rw [bracket]
          exact of_decide_eq_true isOpener
      · exact later one isLater

theorem step_neat {fuel : Nat} {found : Step} (ran : (step fuel).run reader = (found, later))
    (clean : later.Clean) (spaced : reader.Spaced) : found.Neat := by
  rw [step, takeBlanks_then, offset_then] at ran
  obtain ⟨body, middle, ranBody, ran⟩ := ran_bind ran
  obtain ⟨predicates, final, ranPredicates, ran⟩ := ran_bind ran
  obtain ⟨rfl, rfl⟩ := ran_pure ran
  have cleanBody := clean.before (moves_predicates fuel) ranPredicates
  obtain ⟨derived, shown, consumed⟩ := stepBody_sound ranBody cleanBody
  have placed := spaced.placeBlanks
  have keeps := keeps_stepBody fuel placed.visible reader.frontBlanks_placeBlanks
  have moves := moves_stepBody fuel reader.placeBlanks
  rw [ranBody] at keeps moves
  refine ⟨spaced.frontBlanks, ⟨derived, shown, ?_⟩, ?_⟩
  · exact keeps.seen_leaves placed moves consumed
  · exact predicates_neat ranPredicates (moves.spaced placed)

theorem stepIfAny_neat {fuel : Nat} {found : Option Step}
    (ran : (stepIfAny fuel).run reader = (found, later)) (clean : later.Clean)
    (spaced : reader.Spaced) : ∀ step ∈ found, step.Neat := by
  simp only [stepIfAny, lookFor_then] at ran
  split at ran
  · obtain ⟨given, middle, ranStep, ran⟩ := ran_bind ran
    obtain ⟨rfl, rfl⟩ := ran_pure ran
    rintro _ ⟨rfl⟩
    exact step_neat ranStep clean spaced.spend
  · rw [run_ifEnded] at ran
    split at ran <;> exact absurd clean (reportHere_unclean ran)

/-- A step in front of other parts. -/
theorem neat_step_parts {found : Option Step} {parts : List PathPart}
    (first : ∀ step ∈ found, step.Neat) (rest : ∀ part ∈ parts, part.Neat) :
    ∀ part ∈ (found.map PathPart.step).toList ++ parts, part.Neat := by
  intro part member
  rcases List.mem_append.mp member with isFirst | isRest
  · obtain ⟨step, isFound, rfl⟩ := Option.map_eq_some_iff.mp (Option.mem_toList.mp isFirst)
    exact first step isFound
  · exact rest part isRest

theorem laterParts_neat {fuel : Nat} {parts : List PathPart}
    (ran : (laterParts fuel).run reader = (parts, later)) (clean : later.Clean)
    (spaced : reader.Spaced) : ∀ part ∈ parts, part.Neat := by
  induction fuel generalizing reader later parts with
  | zero =>
      obtain ⟨rfl, -⟩ := ran_pure ran
      simp
  | succ fuel ih =>
      simp only [laterParts, run_ifHalted] at ran
      split at ran
      · obtain ⟨rfl, -⟩ := ran_pure ran
        simp
      simp only [lookFor_then] at ran
      split at ran
      · obtain ⟨rfl, -⟩ := ran_pure ran
        simp
      rename_i separator inView
      obtain ⟨next, separates⟩ := head_of_filter TokenKind.isSeparator inView
      rw [advance_then] at ran
      obtain ⟨found, middle, ranStep, ran⟩ := ran_bind ran
      obtain ⟨rest, final, ranRest, ran⟩ := ran_bind ran
      obtain ⟨rfl, rfl⟩ := ran_pure ran
      have onward : reader.spend.step.Spaced := spaced.spend.step
      have first := stepIfAny_neat ranStep (clean.before (moves_laterParts fuel) ranRest) onward
      have others := ih ranRest clean (onward.after (moves_stepIfAny fuel) ranStep)
      rw [List.cons_append, List.forall_mem_cons]
      exact ⟨⟨spaced.head next, separates⟩, neat_step_parts first others⟩

theorem partsFromStep_neat {fuel : Nat} {parts : List PathPart}
    (ran : (partsFromStep fuel).run reader = (parts, later)) (clean : later.Clean)
    (spaced : reader.Spaced) : ∀ part ∈ parts, part.Neat := by
  obtain ⟨found, middle, ranStep, ran⟩ := ran_bind ran
  obtain ⟨rest, final, ranRest, ran⟩ := ran_bind ran
  obtain ⟨rfl, rfl⟩ := ran_pure ran
  have first := stepIfAny_neat ranStep (clean.before (moves_laterParts fuel) ranRest) spaced
  exact neat_step_parts first
    (laterParts_neat ranRest clean (spaced.after (moves_stepIfAny fuel) ranStep))

theorem pathParts_neat {fuel : Nat} {parts : List PathPart}
    (ran : (pathParts fuel).run reader = (parts, later)) (clean : later.Clean)
    (spaced : reader.Spaced) : ∀ part ∈ parts, part.Neat := by
  simp only [pathParts, lookFor_then] at ran
  split at ran
  · exact partsFromStep_neat ran clean spaced.spend
  · rename_i separator inView
    obtain ⟨next, separates⟩ := head_of_filter TokenKind.isSeparator inView
    have onward : reader.spend.spend.step.Spaced := spaced.spend.spend.step
    simp only [look_then, advance_then, ended_then] at ran
    split at ran
    · obtain ⟨rfl, -⟩ := ran_pure ran
      simpa [PathPart.Neat] using ⟨spaced.head next, separates⟩
    · obtain ⟨parts, middle, ranParts, ran⟩ := ran_bind ran
      obtain ⟨rfl, rfl⟩ := ran_pure ran
      rw [List.forall_mem_cons]
      exact ⟨⟨spaced.head next, separates⟩, partsFromStep_neat ranParts clean onward⟩

/-- A path whose parts are as the grammar has them. -/
structure Path.Neat (path : Path) : Prop where
  lead : AreBlank path.lead
  parts : ∀ part ∈ path.parts, part.Neat

theorem pathIfAny_neat {fuel : Nat} {found : Option Path}
    (ran : (pathIfAny fuel).run reader = (found, later)) (clean : later.Clean)
    (spaced : reader.Spaced) : ∀ path ∈ found, path.Neat := by
  rw [pathIfAny, run_ifEnded] at ran
  split at ran
  · exact absurd clean (reportHere_unclean ran)
  · simp only [path, bind_assoc, takeBlanks_then, offset_then] at ran
    obtain ⟨parts, middle, ranParts, ran⟩ := ran_bind ran
    obtain ⟨rfl, rfl⟩ := ran_pure ran
    rintro _ ⟨rfl⟩
    exact ⟨spaced.frontBlanks, pathParts_neat ranParts clean spaced.placeBlanks⟩

theorem root_neat {fuel : Nat} {found : Root} (ran : (root fuel).run reader = (found, later))
    (clean : later.Clean) (spaced : reader.Spaced) :
    (∀ path ∈ found.path, path.Neat) ∧ AreBlank found.trail := by
  rw [root] at ran
  obtain ⟨path, middle, ranPath, ran⟩ := ran_bind ran
  obtain ⟨surplus, final, ranSurplus, ran⟩ := ran_bind ran
  rw [get_then] at ran
  obtain ⟨rfl, rfl⟩ := ran_pure ran
  refine ⟨?_, ?_⟩
  · exact pathIfAny_neat ranPath (clean.before moves_surplusIfAny ranSurplus) spaced
  · have middleSpaced := spaced.after (moves_pathIfAny fuel) ranPath
    exact (middleSpaced.after moves_surplusIfAny ranSurplus).trail

end PathCover.Tree
