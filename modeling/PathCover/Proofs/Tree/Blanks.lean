import PathCover.Proofs.Token.Tiling
import PathCover.Proofs.Tree.Relabel
import PathCover.Proofs.Tree.Start

/-!
# Blanks between tokens are insignificant

What is found out about a text depends on its tokens other than blanks alone.  A reader of the text
is compared with a mirror of it, which sees only those tokens, each placed at its position among
them: whatever the grammar does with the one it does with the other, because all it asks about two
places is whether they are the same.
-/

namespace PathCover

namespace Tree

variable {index : Nat → Nat} {α β γ δ : Type}

/-! ## Readers side by side -/

/-- A reader that sees the same tokens at other places and without blanks. -/
structure Mirrored (index : Nat → Nat) (reader mirror : Reader) : Prop where
  rest : mirror.rest = reader.rest.map (Leaf.moved index)
  trail : mirror.trail = []
  stop : mirror.stop = index reader.stop
  limits : mirror.limits = reader.limits
  consumed : mirror.consumed = reader.consumed
  looks : mirror.looks = reader.looks
  stuck : mirror.stuck = reader.stuck
  exceeded : mirror.exceeded = reader.exceeded
  reported : mirror.reported = reader.reported.map index
  kinds : mirror.report.kinds = reader.report.kinds

/-- A reading and another one that does the same in a mirror, where its value is `change` of what
the first one reads. -/
structure Mirrors (index : Nat → Nat) (change : α → β) (reading : Reading α)
    (mirrored : Reading β) : Prop where
  run : ∀ {reader mirror : Reader}, Mirrored index reader mirror →
    (mirrored.run mirror).1 = change (reading.run reader).1 ∧
      Mirrored index (reading.run reader).2 (mirrored.run mirror).2

namespace Mirrors

theorem pure {change : α → β} {value : α} {other : β} (same : other = change value) :
    Mirrors index change (Pure.pure value) (Pure.pure other) :=
  ⟨fun mirrored => ⟨same, mirrored⟩⟩

theorem bind {change : α → β} {changeLater : γ → δ} {first : Reading α} {other : Reading β}
    {next : α → Reading γ} {otherNext : β → Reading δ} (mirrors : Mirrors index change first other)
    (later : ∀ value, Mirrors index changeLater (next value) (otherNext (change value))) :
    Mirrors index changeLater (first >>= next) (other >>= otherNext) := by
  refine ⟨fun mirrored => ?_⟩
  obtain ⟨same, mirroredLater⟩ := mirrors.run mirrored
  rw [run_bind, run_bind, same]
  exact (later _).run mirroredLater

theorem ite {change : α → β} {condition : Prop} [Decidable condition] {yes no : Reading α}
    {otherYes otherNo : Reading β} (holds : Mirrors index change yes otherYes)
    (fails : Mirrors index change no otherNo) :
    Mirrors index change (if condition then yes else no)
      (if condition then otherYes else otherNo) := by
  split
  · exact holds
  · exact fails

end Mirrors

/-! ## Basic operations -/

section Operations

theorem mirrors_look : Mirrors index (Option.map (Leaf.moved index)) look look := by
  refine ⟨fun {reader mirror} mirrored => ?_⟩
  refine ⟨?_, { mirrored with looks := ?_, stuck := ?_ }⟩
  · rw [run_look, run_look, mirrored.rest, List.head?_map]
  · exact congrArg (· + 1) mirrored.looks
  · simp only [run_look, Reader.spend, mirrored.looks, mirrored.stuck]

theorem filter_moved (accepted : TokenKind → Bool) (leaf : Option Leaf) :
    (leaf.map (Leaf.moved index)).filter (accepted ·.kind) =
      (leaf.filter (accepted ·.kind)).map (Leaf.moved index) := by
  rw [Option.filter_map]
  rfl

theorem mirrors_lookFor (accepted : TokenKind → Bool) :
    Mirrors index (Option.map (Leaf.moved index)) (lookFor accepted) (lookFor accepted) :=
  mirrors_look.bind fun leaf => .pure (filter_moved accepted leaf)

theorem mirrors_secondIf (kind : TokenKind) :
    Mirrors index (Option.map (Leaf.moved index)) (secondIf kind) (secondIf kind) := by
  refine ⟨fun {reader mirror} mirrored => ?_⟩
  refine ⟨?_, mirrored⟩
  rw [run_secondIf, run_secondIf, mirrored.rest, List.getElem?_map]
  exact filter_moved (fun other => decide (other = kind)) _

theorem mirrors_ended : Mirrors index id ended ended := by
  refine ⟨fun {reader mirror} mirrored => ?_⟩
  refine ⟨?_, mirrored⟩
  simp only [run_ended, Reader.hasEnded, mirrored.rest, mirrored.exceeded, List.isEmpty_map, id]

theorem mirrors_halted : Mirrors index id halted halted := by
  refine ⟨fun {reader mirror} mirrored => ?_⟩
  exact ⟨congrArg Option.isSome mirrored.exceeded, mirrored⟩

theorem Mirrored.exceed {reader mirror : Reader} (mirrored : Mirrored index reader mirror)
    (limit : Limit) : Mirrored index (reader.exceed limit) (mirror.exceed limit) :=
  { mirrored with exceeded := by rw [Reader.exceed, Reader.exceed, mirrored.exceeded] }

theorem mirrors_advance : Mirrors index id advance advance := by
  refine ⟨fun {reader mirror} mirrored => ?_⟩
  refine ⟨rfl, ?_⟩
  have spent : mirror.isSpent = reader.isSpent := by
    rw [Reader.isSpent, Reader.isSpent, mirrored.limits, mirrored.consumed]
  have tail : mirror.rest.tail = reader.rest.tail.map (Leaf.moved index) := by
    rw [mirrored.rest, List.map_tail]
  have count : mirror.consumed + 1 = reader.consumed + 1 := congrArg (· + 1) mirrored.consumed
  rw [run_advance, run_advance, Reader.step, Reader.step, spent]
  cases reader.isSpent with
  | false => exact { mirrored with rest := tail, consumed := count, looks := rfl }
  | true =>
      exact { mirrored.exceed .tokens with rest := tail, consumed := count, looks := rfl }

theorem mirrors_takeBlanks : Mirrors index (fun _ => []) takeBlanks takeBlanks := by
  refine ⟨fun {reader mirror} mirrored => ?_⟩
  have rest := mirrored.rest
  rw [run_takeBlanks, run_takeBlanks, Reader.frontBlanks, Reader.placeBlanks, Reader.placeBlanks]
  simp only [takeBlanks, StateT.run, rest]
  cases first : reader.rest with
  | nil => exact ⟨rfl, mirrored⟩
  | cons leaf tail => exact ⟨rfl, { mirrored with rest := rfl }⟩

theorem Mirrored.start_nextSpan {reader mirror : Reader} (mirrored : Mirrored index reader mirror) :
    mirror.nextSpan.start = index reader.nextSpan.start := by
  rw [Reader.nextSpan, Reader.nextSpan, mirrored.rest]
  cases reader.rest with
  | nil => exact mirrored.stop
  | cons leaf rest => rfl

theorem mirrors_offset : Mirrors index index offset offset := by
  refine ⟨fun {reader mirror} mirrored => ?_⟩
  refine ⟨?_, mirrored⟩
  rw [run_offset, run_offset, Reader.offset, Reader.offset, mirrored.rest]
  cases reader.rest with
  | nil => exact mirrored.stop
  | cons leaf rest => rfl

theorem mirrors_mayOpen (depth : Nat) : Mirrors index id (mayOpen depth) (mayOpen depth) := by
  refine ⟨fun {reader mirror} mirrored => ?_⟩
  simp only [mayOpen, StateT.run, mirrored.limits]
  split
  · exact ⟨rfl, mirrored⟩
  · split
    · exact ⟨rfl, mirrored.exceed .depth⟩
    · exact ⟨rfl, mirrored⟩

/-- Where places are told apart, reports are made or left out alike. -/
theorem mirrors_reportAt (injective : Function.Injective index) {place : Nat}
    {diagnostic other : Diagnostic} (sameKind : other.kind = diagnostic.kind) :
    Mirrors index id (reportAt place diagnostic) (reportAt (index place) other) := by
  refine ⟨fun {reader mirror} mirrored => ?_⟩
  refine ⟨rfl, { mirrored with reported := rfl, kinds := ?_ }⟩
  have same : mirror.reported = some (index place) ↔ reader.reported = some place := by
    rw [mirrored.reported, ← Option.map_some]
    exact (Option.map_injective injective).eq_iff
  simp only [reportAt, StateT.run, same]
  split
  · exact mirrored.kinds
  · have single : Report.kinds [other] = Report.kinds [diagnostic] := congrArg ([·]) sameKind
    rw [Report.kinds_append, Report.kinds_append, mirrored.kinds, single]

/-- The next token has other spans in a mirror, but they start at places that correspond. -/
theorem Mirrors.lookSpan {change : α → β} {next : Text.Span → Reading α}
    {other : Text.Span → Reading β}
    (later : ∀ here there : Text.Span, there.start = index here.start →
      Mirrors index change (next here) (other there)) :
    Mirrors index change (Tree.lookSpan >>= next) (Tree.lookSpan >>= other) :=
  ⟨fun mirrored =>
    (later _ _ mirrored.start_nextSpan).run (mirrors_look.run mirrored).2⟩

theorem mirrors_reportHere (injective : Function.Injective index) (kind : DiagnosticKind)
    (detail : Option String) :
    Mirrors index id (reportHere kind detail) (reportHere kind detail) := by
  refine .lookSpan fun here there place => ?_
  rw [place]
  exact mirrors_reportAt injective rfl

theorem mirrors_eat (kind : TokenKind) :
    Mirrors index (Option.map (Leaf.moved index)) (eat kind) (eat kind) := by
  refine (mirrors_lookFor _).bind fun leaf => ?_
  cases leaf with
  | none => exact .pure rfl
  | some leaf => exact mirrors_advance.bind fun _ => .pure rfl

end Operations

/-! ## Parts of a path -/

section Parts

variable (injective : Function.Injective index)
include injective

theorem mirrors_close (closer : TokenKind) (kind : DiagnosticKind) (detail : String)
    (opener : Token) :
    Mirrors index (Option.map (Leaf.moved index)) (close closer kind detail opener)
      (close closer kind detail (opener.moved index)) := by
  refine (mirrors_eat closer).bind fun leaf => ?_
  cases leaf with
  | some leaf => exact .pure rfl
  | none =>
      refine .lookSpan fun here there place => ?_
      rw [place]
      refine .bind (mirrors_reportAt injective rfl) fun _ => ?_
      exact .pure rfl

theorem mirrors_nameTest (first : Leaf) :
    Mirrors index (NameTest.moved index) (nameTest first) (nameTest (first.moved index)) := by
  refine mirrors_advance.bind fun _ => (mirrors_eat .colon).bind fun colon => ?_
  cases colon with
  | none => exact .pure rfl
  | some colon =>
      refine (mirrors_lookFor _).bind fun second => ?_
      cases second with
      | some second => exact mirrors_advance.bind fun _ => .pure rfl
      | none =>
          exact (mirrors_reportHere injective .expectedName _).bind fun _ => .pure rfl

theorem mirrors_kindTestWith {inner other : Reading (List Argument)} (depth : Nat)
    (keyword opener : Leaf) (mirrorsInner : Mirrors index (Argument.movedOf index) inner other) :
    Mirrors index (Option.map (KindTest.moved index)) (kindTestWith inner depth keyword opener)
      (kindTestWith other depth (keyword.moved index) (opener.moved index)) := by
  refine (mirrors_mayOpen depth).bind fun opens => ?_
  cases opens with
  | false => exact .pure rfl
  | true =>
      refine mirrors_advance.bind fun _ => mirrors_look.bind fun _ =>
        mirrors_advance.bind fun _ => mirrorsInner.bind fun arguments => ?_
      exact (mirrors_close injective ..).bind fun closer => .pure rfl

theorem mirrors_stray (leaf : Leaf) :
    Mirrors index (Argument.moved index) (stray leaf) (stray (leaf.moved index)) := by
  refine mirrors_look.bind fun _ => (mirrors_reportHere injective .unexpectedToken _).bind fun _ =>
    mirrors_advance.bind fun _ => .pure ?_
  rw [Argument.moved]
  rfl

theorem mirrors_arguments (fuel depth : Nat) :
    Mirrors index (Argument.movedOf index) (arguments fuel depth) (arguments fuel depth) := by
  induction fuel generalizing depth with
  | zero => exact .pure Argument.movedOf_nil.symm
  | succ fuel ih =>
      rw [arguments]
      refine mirrors_ended.bind fun atEnd => .ite (.pure Argument.movedOf_nil.symm) ?_
      refine (mirrors_lookFor _).bind fun leaf => ?_
      cases leaf with
      | none => exact .pure Argument.movedOf_nil.symm
      | some leaf =>
          refine mirrors_look.bind fun _ => ?_
          simp only [Leaf.kind_moved]
          split
          · refine (mirrors_secondIf .parenOpen).bind fun opener => ?_
            cases opener with
            | some opener =>
                refine (mirrors_kindTestWith injective depth leaf opener (ih (depth + 1))).bind
                  fun test => (ih depth).bind fun rest => .pure ?_
                exact (Argument.movedOf_toArgument test rest).symm
            | none =>
                refine (mirrors_nameTest injective leaf).bind fun test =>
                  (ih depth).bind fun rest => .pure ?_
                rw [Argument.movedOf_cons, Argument.moved]
          · refine (mirrors_nameTest injective leaf).bind fun test =>
              (ih depth).bind fun rest => .pure ?_
            rw [Argument.movedOf_cons, Argument.moved]
          case h_3 | h_4 | h_5 =>
            refine mirrors_advance.bind fun _ => (ih depth).bind fun rest => .pure ?_
            rw [Argument.movedOf_cons, Argument.moved]
          · refine (mirrors_stray injective leaf).bind fun argument =>
              (ih depth).bind fun rest => .pure ?_
            rw [Argument.movedOf_cons]

theorem mirrors_predicateWith {inner other : Reading (List PredicateItem)} (depth : Nat)
    (opener : Leaf) (mirrorsInner : Mirrors index (PredicateItem.movedOf index) inner other) :
    Mirrors index (Option.map (Predicate.moved index)) (predicateWith inner depth opener)
      (predicateWith other depth (opener.moved index)) := by
  refine (mirrors_mayOpen depth).bind fun opens => ?_
  cases opens with
  | false => exact .pure rfl
  | true =>
      refine mirrors_look.bind fun _ => mirrors_advance.bind fun _ =>
        mirrorsInner.bind fun items => ?_
      exact (mirrors_close injective ..).bind fun closer => .pure rfl

theorem mirrors_predicateItems (fuel depth : Nat) :
    Mirrors index (PredicateItem.movedOf index) (predicateItems fuel depth)
      (predicateItems fuel depth) := by
  induction fuel generalizing depth with
  | zero => exact .pure PredicateItem.movedOf_nil.symm
  | succ fuel ih =>
      rw [predicateItems]
      refine mirrors_ended.bind fun atEnd => .ite (.pure PredicateItem.movedOf_nil.symm) ?_
      refine mirrors_look.bind fun leaf => ?_
      cases leaf with
      | none => exact .pure PredicateItem.movedOf_nil.symm
      | some leaf =>
          simp only [Option.map_some, Leaf.kind_moved]
          split
          · exact .pure PredicateItem.movedOf_nil.symm
          · refine (mirrors_predicateWith injective depth leaf (ih (depth + 1))).bind
              fun inner => (ih depth).bind fun rest => .pure ?_
            exact (PredicateItem.movedOf_toItem inner rest).symm
          · refine mirrors_advance.bind fun _ => (ih depth).bind fun rest => .pure ?_
            rw [PredicateItem.movedOf_cons, PredicateItem.moved]

theorem mirrors_predicates (fuel : Nat) :
    Mirrors index (List.map (Predicate.moved index)) (predicates fuel) (predicates fuel) := by
  induction fuel with
  | zero => exact .pure rfl
  | succ fuel ih =>
      rw [predicates]
      refine mirrors_halted.bind fun isHalted => .ite (.pure rfl) ?_
      refine (mirrors_lookFor _).bind fun opener => ?_
      cases opener with
      | none => exact .pure rfl
      | some opener =>
          refine (mirrors_predicateWith injective 0 opener
            (mirrors_predicateItems injective fuel 1)).bind fun predicate =>
            ih.bind fun rest => .pure ?_
          rw [List.map_append, Option.toList_map]

theorem mirrors_nodeTest (fuel : Nat) (context : String) :
    Mirrors index (Option.map (NodeTest.moved index)) (nodeTest fuel context)
      (nodeTest fuel context) := by
  have missing : Mirrors index (Option.map (NodeTest.moved index))
      (do reportHere .expectedNodeTest (some context); return none)
      (do reportHere .expectedNodeTest (some context); return none) :=
    (mirrors_reportHere injective _ _).bind fun _ => .pure rfl
  refine mirrors_look.bind fun leaf => ?_
  cases leaf with
  | none => exact missing
  | some leaf =>
      simp only [Option.map_some, Leaf.kind_moved]
      split
      · refine (mirrors_secondIf .parenOpen).bind fun opener => ?_
        cases opener with
        | some opener =>
            refine (mirrors_kindTestWith injective 0 leaf opener
              (mirrors_arguments injective fuel 1)).bind fun test => .pure ?_
            cases test <;> rfl
        | none => exact (mirrors_nameTest injective leaf).bind fun test => .pure rfl
      · exact (mirrors_nameTest injective leaf).bind fun test => .pure rfl
      · exact missing

theorem mirrors_stepBody (fuel : Nat) :
    Mirrors index (StepBody.moved index) (stepBody fuel) (stepBody fuel) := by
  have bare : ∀ context, Mirrors index (StepBody.moved index)
      (do return .tested none (← nodeTest fuel context))
      (do return .tested none (← nodeTest fuel context)) := fun context =>
    (mirrors_nodeTest injective fuel context).bind fun test => .pure rfl
  refine mirrors_look.bind fun leaf => ?_
  cases leaf with
  | none => exact bare _
  | some leaf =>
      simp only [Option.map_some, Leaf.kind_moved]
      split
      · exact mirrors_advance.bind fun _ => .pure rfl
      · exact mirrors_advance.bind fun _ => .pure rfl
      · exact mirrors_advance.bind fun _ =>
          (mirrors_nodeTest injective fuel _).bind fun test => .pure rfl
      · refine (mirrors_secondIf .colonColon).bind fun colons => ?_
        cases colons with
        | some colons =>
            exact mirrors_advance.bind fun _ => mirrors_advance.bind fun _ =>
              (mirrors_nodeTest injective fuel _).bind fun test => .pure rfl
        | none => exact bare _
      · exact bare _

theorem mirrors_step (fuel : Nat) :
    Mirrors index (Step.moved index) (step fuel) (step fuel) :=
  mirrors_takeBlanks.bind fun _ => mirrors_offset.bind fun _ =>
    (mirrors_stepBody injective fuel).bind fun _ =>
      (mirrors_predicates injective fuel).bind fun _ => .pure rfl

theorem mirrors_stepIfAny (fuel : Nat) :
    Mirrors index (Option.map (Step.moved index)) (stepIfAny fuel) (stepIfAny fuel) := by
  refine (mirrors_lookFor _).bind fun leaf => ?_
  cases leaf with
  | some leaf => exact (mirrors_step injective fuel).bind fun step => .pure rfl
  | none =>
      refine mirrors_ended.bind fun atEnd => ?_
      cases atEnd with
      | true => exact (mirrors_reportHere injective _ _).bind fun _ => .pure rfl
      | false => exact (mirrors_reportHere injective _ _).bind fun _ => .pure rfl

theorem mirrors_laterParts (fuel : Nat) :
    Mirrors index (List.map (PathPart.moved index)) (laterParts fuel) (laterParts fuel) := by
  induction fuel with
  | zero => exact .pure rfl
  | succ fuel ih =>
      rw [laterParts]
      refine mirrors_halted.bind fun isHalted => .ite (.pure rfl) ?_
      refine (mirrors_lookFor _).bind fun separator => ?_
      cases separator with
      | none => exact .pure rfl
      | some separator =>
          refine mirrors_advance.bind fun _ => (mirrors_stepIfAny injective fuel).bind
            fun step => ih.bind fun rest => .pure ?_
          cases step <;> rfl

theorem mirrors_partsFromStep (fuel : Nat) :
    Mirrors index (List.map (PathPart.moved index)) (partsFromStep fuel) (partsFromStep fuel) := by
  refine (mirrors_stepIfAny injective fuel).bind fun first =>
    (mirrors_laterParts injective fuel).bind fun rest => .pure ?_
  cases first <;> rfl

theorem mirrors_pathParts (fuel : Nat) :
    Mirrors index (List.map (PathPart.moved index)) (pathParts fuel) (pathParts fuel) := by
  refine (mirrors_lookFor _).bind fun separator => ?_
  cases separator with
  | none => exact mirrors_partsFromStep injective fuel
  | some separator =>
      refine mirrors_look.bind fun _ => mirrors_advance.bind fun _ =>
        mirrors_ended.bind fun atEnd => ?_
      exact .ite (.pure rfl) ((mirrors_partsFromStep injective fuel).bind fun rest => .pure rfl)

theorem mirrors_path (fuel : Nat) :
    Mirrors index (Path.moved index) (path fuel) (path fuel) :=
  mirrors_takeBlanks.bind fun _ => mirrors_offset.bind fun _ =>
    (mirrors_pathParts injective fuel).bind fun _ => .pure rfl

theorem mirrors_pathIfAny (fuel : Nat) :
    Mirrors index (Option.map (Path.moved index)) (pathIfAny fuel) (pathIfAny fuel) := by
  refine mirrors_ended.bind fun atEnd => .ite ?_ ?_
  · exact (mirrors_reportHere injective _ _).bind fun _ => .pure rfl
  · exact (mirrors_path injective fuel).bind fun path => .pure rfl

omit injective in
theorem mirrors_forM_advance (leaves : List Leaf) :
    Mirrors index id (leaves.forM fun _ => advance)
      ((leaves.map (Leaf.moved index)).forM fun _ => advance) := by
  induction leaves with
  | nil => exact .pure rfl
  | cons leaf leaves ih => exact mirrors_advance.bind fun _ => ih

omit injective in
theorem mirrors_surplus : Mirrors index (Surplus.moved index) surplus surplus := by
  refine mirrors_takeBlanks.bind fun lead => mirrors_offset.bind fun start =>
    ⟨fun {reader mirror} mirrored => ?_⟩
  have consumed : Mirrors index (Surplus.moved index)
      (do reader.rest.forM fun _ => advance; return ⟨lead, start, reader.rest⟩)
      (do mirror.rest.forM fun _ => advance; return ⟨[], index start, mirror.rest⟩) := by
    rw [mirrored.rest]
    exact (mirrors_forM_advance _).bind fun _ => .pure rfl
  exact consumed.run mirrored

theorem mirrors_surplusIfAny :
    Mirrors index (Option.map (Surplus.moved index)) surplusIfAny surplusIfAny := by
  refine mirrors_ended.bind fun atEnd => .ite (.pure rfl) ?_
  refine mirrors_look.bind fun next => ?_
  rw [Option.map_map]
  exact (mirrors_reportHere injective .trailingInput _).bind fun _ =>
    mirrors_surplus.bind fun _ => .pure rfl

/-- Two readers that see the same tokens read the same tree, moved. -/
theorem mirrors_root (fuel : Nat) : Mirrors index (Root.moved index) (root fuel) (root fuel) := by
  refine (mirrors_pathIfAny injective fuel).bind fun path =>
    (mirrors_surplusIfAny injective).bind fun surplus => ⟨fun mirrored => ⟨?_, mirrored⟩⟩
  rw [get_then, get_then, mirrored.trail]
  rfl

end Parts

/-! ## Mirrors of texts -/

/-- Where a place stands in a list of places.  Places that are not in it are told apart too. -/
def position (places : List Nat) (place : Nat) : Nat :=
  if place ∈ places then places.idxOf place else places.length + place

theorem position_injective (places : List Nat) : Function.Injective (position places) := by
  intro place other same
  have below : ∀ {place}, place ∈ places → places.idxOf place < places.length :=
    List.idxOf_lt_length_of_mem
  unfold position at same
  split at same <;> split at same
  · rename_i member _
    exact (List.idxOf_inj member).mp same
  · rename_i member _
    have := below member
    omega
  · rename_i member
    have := below member
    omega
  · omega

theorem position_getElem {places : List Nat} (nodup : places.Nodup) (i : Nat)
    (inside : i < places.length) : position places places[i] = i := by
  rw [position, if_pos (List.getElem_mem inside)]
  exact nodup.idxOf_getElem i inside

/-- Tokens placed at their positions in a list. -/
def positioned (lexemes : List Token.Lexeme) : List Token :=
  lexemes.mapIdx fun place lexeme => ⟨lexeme.kind, place, String.ofList lexeme.text⟩

/-- A reader that has nothing but the given tokens in front of it. -/
def Reader.ofLexemes (limits : Limits) (lexemes : List Token.Lexeme) : Reader :=
  { Reader.start limits lexemes.length [] with
    rest := (positioned lexemes).map fun token => ⟨[], token⟩ }

/-- Tokens that start at different places are placed at their positions by moving them. -/
theorem positioned_lexemes {tokens : List Token} {stop : Nat}
    (nodup : (tokens.map Token.start ++ [stop]).Nodup) :
    positioned (tokens.map Token.lexeme) =
      tokens.map (Token.moved (position (tokens.map Token.start ++ [stop]))) := by
  apply List.ext_getElem
  · simp [positioned]
  · intro i inside _
    have inTokens : i < tokens.length := by simpa [positioned] using inside
    have placed := position_getElem nodup i (by simp; omega)
    rw [List.getElem_append_left (by simpa using inTokens), List.getElem_map] at placed
    simp [positioned, Token.lexeme, Token.moved, placed]

theorem position_stop {tokens : List Token} {stop : Nat}
    (nodup : (tokens.map Token.start ++ [stop]).Nodup) :
    position (tokens.map Token.start ++ [stop]) stop = tokens.length := by
  have placed := position_getElem nodup tokens.length (by simp)
  rwa [List.getElem_append_right (by simp), List.getElem_singleton] at placed

/-- The mirror of a text has its tokens in front of it, blanks aside. -/
theorem mirrored_ofText (limits : Limits) (text : String) :
    Mirrored (position (Token.places text)) (.ofText limits text)
      (.ofLexemes limits (Token.significant text)) := by
  have nodup : (Token.places text).Nodup := (Token.pairwise_places text).imp Nat.ne_of_lt
  have rest : (Reader.ofLexemes limits (Token.significant text)).rest =
      (Reader.ofText limits text).rest.map (Leaf.moved (position (Token.places text))) := by
    have placed : positioned (Token.significant text) =
        ((attachBlanks (Token.lex text)).1.map Leaf.token).map
          (Token.moved (position (Token.places text))) := by
      rw [map_token_attachBlanks]
      exact positioned_lexemes nodup
    rw [Reader.ofLexemes, placed, List.map_map, List.map_map]
    rfl
  refine ⟨rest, rfl, Eq.trans ?_ (position_stop nodup).symm, rfl, rfl, rfl, rfl, rfl, rfl, rfl⟩
  exact List.length_map ..

end Tree

/-! ## What is found out about a text -/

/-- What there is to say about a text apart from places and words. -/
structure Findings where
  path : Path
  isValid : Bool
  kinds : List DiagnosticKind
  deriving DecidableEq, Inhabited

namespace ParsedPath

def findings (parsed : ParsedPath) : Findings :=
  ⟨parsed.path, parsed.isValid, parsed.report.kinds⟩

/-- What is found out about a text that has the given tokens and no blanks. -/
def findingsOf (limits : Tree.Limits) (lexemes : List Token.Lexeme) :
    Except Tree.Failure Findings :=
  let read := (Tree.root (lexemes.length + 1)).run (.ofLexemes limits lexemes)
  (Tree.outcome read.1 read.2).map fun tree => (ofParsed "" tree).findings

variable {index : Nat → Nat} (text : String)

/-- A moved tree with a report of the same kinds makes for the same findings. -/
theorem findings_moved {tree : Tree.Root} {report other : Report} (consumed : Nat)
    (same : other.kinds = report.kinds) :
    (ofParsed "" ⟨tree.moved index, other, consumed⟩).findings =
      (ofParsed text ⟨tree, report, consumed⟩).findings := by
  have kinds : Report.kinds (other ++ (tree.moved index).report) =
      Report.kinds (report ++ tree.report) := by
    rw [Report.kinds_append, Report.kinds_append, same, tree.kinds_moved]
  simp only [findings, ofParsed, isValid, Tree.Root.meaning_moved, kinds,
    Report.hasErrors_of_kinds kinds]

theorem outcome_moved {reader mirror : Tree.Reader} (tree : Tree.Root)
    (mirrored : Tree.Mirrored index reader mirror) :
    (Tree.outcome (tree.moved index) mirror).map (fun read => (ofParsed "" read).findings) =
      (Tree.outcome tree reader).map fun read => (ofParsed text read).findings := by
  rw [Tree.outcome, Tree.outcome, mirrored.stuck, mirrored.exceeded, mirrored.limits,
    mirrored.consumed]
  split
  · rfl
  · split
    · rfl
    · exact congrArg Except.ok (findings_moved text _ mirrored.kinds)

/-- What is found out about a text depends on its tokens other than blanks alone. -/
theorem findings_eq (limits : Tree.Limits) :
    (parse limits text).map findings = findingsOf limits (Token.significant text) := by
  obtain ⟨tree, mirrored⟩ := (Tree.mirrors_root (Tree.position_injective (Token.places text))
    ((Token.significant text).length + 1)).run (Tree.mirrored_ofText limits text)
  rw [parse, Tree.parse_eq, Tree.readText, findingsOf, tree, outcome_moved text _ mirrored]
  cases Tree.outcome _ _ <;> rfl

/-- Blanks between tokens are insignificant: texts that differ in nothing but blanks fail alike, or
stand for the same path, are both valid or both not, and have the same kinds of things wrong with
them in the same order. -/
theorem blanks_insignificant (limits : Tree.Limits) {text other : String}
    (same : Token.significant text = Token.significant other) :
    (parse limits text).map findings = (parse limits other).map findings := by
  rw [findings_eq, findings_eq, same]

/-- A predicate that is never closed, with and without blanks. -/
theorem blanks_insignificant_malformed :
    (parse .standard "/ tei : p [ . ) // @ n ").map findings =
      (parse .standard "/tei:p[.) //@n").map findings :=
  blanks_insignificant .standard (by decide +kernel)

end ParsedPath

end PathCover
