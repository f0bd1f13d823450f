import Mathlib.Data.List.Perm.Subperm
import PathCover.Proofs.Token.Frame
import PathCover.Proofs.Tree.Lossless
import PathCover.Proofs.Tree.Moves
import PathCover.Proofs.Tree.Provenance

/-!
# What is reported, and where

Diagnostics cover stretches between tokens.  The reader raises them about the token in front of it,
and never twice about the same one: only the place of the last report is remembered, but the reader
never goes back.  So the places of its diagnostics increase, and there are no more of them than
tokens and the end of the text.
-/

namespace PathCover

namespace Diagnostic

/-- What a diagnostic covers and points at lies between tokens. -/
structure Framed (text : String) (diagnostic : Diagnostic) : Prop where
  own : Token.Framed text diagnostic.span
  related : ∀ related ∈ diagnostic.related, Token.Framed text related.span

/-- A diagnostic about an open group covers the token that opens it, from which it starts and at
which it points. -/
def Opened (text : String) (diagnostic : Diagnostic) : Prop :=
  ∀ kind ∈ diagnostic.kind.opener?, ∃ opener ∈ Token.lex text, opener.kind = kind ∧
    diagnostic.span.start = opener.start ∧ opener.stop ≤ diagnostic.span.stop ∧
    diagnostic.related = [⟨"opened here", opener.span⟩]

variable {text : String} {kind : DiagnosticKind} {span : Text.Span} {detail : Option String}

theorem Framed.plain (framed : Token.Framed text span) :
    (Diagnostic.plain kind span detail).Framed text :=
  ⟨framed, List.forall_mem_nil _⟩

theorem Opened.plain (noGroup : kind.opener? = none) :
    (Diagnostic.plain kind span detail).Opened text := by
  intro opener isOpener
  cases noGroup.symm.trans isOpener

end Diagnostic

theorem DiagnosticKind.opener?_eq_none_iff {kind : DiagnosticKind} :
    kind.opener? = none ↔ kind.isStructural = false := by
  cases kind <;> simp [opener?, isStructural]

namespace Tree

open Element

/-! ## Nodes -/

namespace Element

theorem span_eq (element : Element) :
    element.span = ⟨element.span.start, element.span.start + Token.width element.leaves⟩ := by
  cases element with
  | leaf token => simp [span, Token.span, Token.stop, Token.width]
  | node kind start children => rfl

mutual

theorem infix_of_mem_nodes {node : Element} (element : Element) (member : node ∈ element.nodes) :
    node.leaves <:+: element.leaves := by
  cases element with
  | leaf token => simp at member
  | node kind start children =>
      rw [nodes_node, List.mem_cons] at member
      rcases member with rfl | inside
      · exact List.infix_refl _
      · rw [leaves_node]
        exact infix_of_mem_nodesOf children inside

theorem infix_of_mem_nodesOf {node : Element} (elements : List Element)
    (member : node ∈ nodesOf elements) : node.leaves <:+: leavesOf elements := by
  cases elements with
  | nil => simp at member
  | cons element rest =>
      rw [nodesOf_cons, List.mem_append] at member
      rw [leavesOf_cons]
      rcases member with here | later
      · exact (infix_of_mem_nodes element here).trans (List.prefix_append _ _).isInfix
      · exact (infix_of_mem_nodesOf rest later).trans (List.suffix_append _ _).isInfix

end

end Element

/-- The tokens and nodes of the tree of a text cover stretches between tokens. -/
theorem source_of_parse {limits : Limits} {text : String} {parsed : ParsedPath}
    (isParsed : ParsedPath.parse limits text = .ok parsed) :
    Source (fun _ => True) (Token.Framed text) [parsed.root.element] := by
  have leaves := ParsedPath.leaves_of_parse isParsed
  have together : leavesOf [parsed.root.element] = Token.lex text := by simpa using leaves
  obtain ⟨isRoot, within⟩ := ParsedPath.root_eq_readText isParsed
  have begun := begun_root _ (Reader.visible_ofText limits text) within
  rw [← readText, ← isRoot] at begun
  refine ⟨fun _ _ => trivial, fun token isLeaf => ?_, fun node isNode notPath => ?_⟩
  · rw [together] at isLeaf
    exact .ofToken isLeaf
  · have part := infix_of_mem_nodesOf _ isNode
    rw [together] at part
    have nodes : nodesOf [parsed.root.element] =
        parsed.root.element :: parsed.root.element.inner := by
      simp [Root.element, Element.inner, Element.children]
    rw [nodes, List.mem_cons] at isNode
    rcases isNode with rfl | isInner
    · have starts : parsed.root.element.span.start = 0 := rfl
      rw [span_eq, starts, leaves, Token.width_lex, Nat.zero_add]
      exact .whole
    · rcases begun node isInner with isPath | ⟨first, isFirst, starts⟩
      · exact absurd isPath notPath
      · rw [span_eq, ← starts]
        exact .ofTokens part isFirst

/-! ## What is ahead of a reader -/

/-- The tokens that are left to a reader are the last ones of a text, blanks aside. -/
structure Reader.Ahead (text : String) (reader : Reader) : Prop where
  rest : reader.rest.map Leaf.token <:+ (Token.lex text).filter (!·.kind.isTrivia)
  stop : reader.stop = text.utf8ByteSize

@[simp] theorem Reader.offset_placeBlanks (reader : Reader) :
    reader.placeBlanks.offset = reader.offset := by
  cases rest : reader.rest <;>
    simp [Reader.offset, Reader.placeBlanks, takeBlanks, rest, StateT.run, Leaf.bare]

namespace Reader.Ahead

variable {text : String} {reader : Reader} {leaf : Leaf}

theorem ofText (limits : Limits) (text : String) : (Reader.ofText limits text).Ahead text where
  rest := by
    rw [← map_token_attachBlanks]
    exact List.suffix_refl _
  stop := rfl

theorem step (ahead : reader.Ahead text) : reader.step.Ahead text where
  rest := by
    rw [rest_step, List.map_tail]
    exact (List.tail_suffix _).trans ahead.rest
  stop := by
    rw [← ahead.stop]
    simp only [Reader.step]
    split <;> rfl

theorem placeBlanks (ahead : reader.Ahead text) : reader.placeBlanks.Ahead text where
  rest := by
    rw [rest_placeBlanks]
    exact ahead.rest
  stop := by
    rw [← ahead.stop]
    cases rest : reader.rest <;> simp [Reader.placeBlanks, takeBlanks, rest, StateT.run]

/-- The next token is one of the text. -/
theorem mem (ahead : reader.Ahead text) (next : reader.rest.head? = some leaf) :
    leaf.token ∈ Token.lex text := by
  have member : leaf.token ∈ reader.rest.map Leaf.token :=
    List.mem_map_of_mem (List.mem_of_mem_head? next)
  exact List.mem_of_mem_filter (ahead.rest.subset member)

theorem offset_mem_places (ahead : reader.Ahead text) : reader.offset ∈ Token.places text := by
  rw [Token.places, List.mem_append, List.mem_singleton, Reader.offset]
  split
  · exact .inr ahead.stop
  · rename_i leaf behind rest
    have member : leaf.token ∈ reader.rest.map Leaf.token := by
      rw [rest]
      exact List.mem_cons_self
    exact .inl (List.mem_map_of_mem (ahead.rest.subset member))

theorem framed_nextSpan (ahead : reader.Ahead text) : Token.Framed text reader.nextSpan := by
  unfold nextSpan
  split
  · rw [ahead.stop]
    exact .atEnd
  · rename_i leaf behind rest
    exact .ofToken (ahead.mem (by rw [rest]; rfl))

theorem stop_le_offset_step (ahead : reader.Ahead text)
    (next : reader.rest.head? = some leaf) : leaf.token.stop ≤ reader.step.offset := by
  obtain ⟨behind, rest⟩ := List.head?_eq_some_iff.mp next
  cases behind with
  | nil =>
      have atEnd : reader.step.offset = text.utf8ByteSize := by
        rw [Reader.offset, rest_step, rest]
        exact ahead.step.stop
      rw [atEnd]
      exact Token.le_size_of_mem_boundaries (Token.stop_mem_boundaries (ahead.mem next))
  | cons second behind =>
      have ordered := ((Token.pairwise_lex text).filter _).sublist ahead.rest.sublist
      rw [rest, List.map_cons, List.map_cons, List.pairwise_cons] at ordered
      rw [Reader.offset, rest_step, rest]
      exact ordered.1 _ List.mem_cons_self

/-- Consuming a token moves a reader forward. -/
theorem offset_lt_step (ahead : reader.Ahead text) (next : reader.rest ≠ []) :
    reader.offset < reader.step.offset := by
  obtain ⟨leaf, behind, rest⟩ := List.exists_cons_of_ne_nil next
  have isNext : reader.rest.head? = some leaf := by rw [rest]; rfl
  have starts : reader.offset = leaf.token.start := by rw [Reader.offset, rest]
  rw [starts]
  exact Nat.lt_of_lt_of_le (Token.start_lt_stop (ahead.mem isNext))
    (ahead.stop_le_offset_step isNext)

end Reader.Ahead

namespace Course

variable {text : String} {first later : Reader} {raised : List Raised}

/-- A reader never goes back. -/
theorem ahead (course : Course first raised later) (start : first.Ahead text) :
    later.Ahead text ∧ first.offset ≤ later.offset := by
  induction course with
  | done => exact ⟨start, Nat.le_refl _⟩
  | look => exact ⟨⟨start.rest, start.stop⟩, Nat.le_refl _⟩
  | advance next => exact ⟨start.step, (start.offset_lt_step next).le⟩
  | exceed => exact ⟨⟨start.rest, start.stop⟩, Nat.le_refl _⟩
  | placeBlanks => exact ⟨start.placeBlanks, (Reader.offset_placeBlanks _).ge⟩
  | report => exact ⟨⟨start.rest, start.stop⟩, Nat.le_refl _⟩
  | unclosed kind detail opens next inside ih =>
      obtain ⟨ends, further⟩ := ih start.step
      have forward := start.offset_lt_step (rest_ne_nil_of_head next)
      exact ⟨⟨ends.rest, ends.stop⟩, forward.le.trans further⟩
  | append _ _ earlier behind =>
      obtain ⟨middle, toMiddle⟩ := earlier start
      obtain ⟨ends, further⟩ := behind middle
      exact ⟨ends, toMiddle.trans further⟩

/-- What is raised is added to the report. -/
theorem report_eq (course : Course first raised later) :
    later.report = first.report ++ raised.map Raised.diagnostic := by
  have noted : ∀ (reader : Reader) (diagnostic : Diagnostic),
      (reader.note reader.offset diagnostic).report =
        reader.report ++ (reader.raise diagnostic).map Raised.diagnostic := by
    intro reader diagnostic
    rw [Reader.report_note, Reader.raise]
    split <;> simp
  induction course with
  | done => simp
  | look => simp
  | advance => simp
  | exceed => simp [Reader.exceed]
  | placeBlanks => simp
  | report => exact noted _ _
  | unclosed kind detail opens next inside ih =>
      rw [noted, ih, Reader.report_step, List.map_append, List.append_assoc]
  | append _ _ earlier behind => rw [behind, earlier, List.map_append, List.append_assoc]

end Course

/-! ## Places of reports -/

/-- The first place about which a reader has reported nothing yet. -/
def Reader.unreported (reader : Reader) : Nat :=
  if reader.reported = some reader.offset then reader.offset + 1 else reader.offset

/-- Diagnostics that are raised about places from one to another, each behind those before it. -/
structure Rising (start stop : Nat) (raised : List Raised) : Prop where
  forward : start ≤ stop
  bounds : ∀ one ∈ raised, start ≤ one.place ∧ one.place < stop
  increasing : raised.Pairwise (·.place < ·.place)

namespace Rising

variable {start middle stop : Nat} {raised others : List Raised}

theorem nil (forward : start ≤ stop) : Rising start stop [] :=
  ⟨forward, List.forall_mem_nil _, .nil⟩

theorem append (earlier : Rising start middle raised) (behind : Rising middle stop others) :
    Rising start stop (raised ++ others) where
  forward := earlier.forward.trans behind.forward
  bounds := by
    rw [List.forall_mem_append]
    constructor
    · intro one member
      have bounds := earlier.bounds one member
      exact ⟨bounds.1, bounds.2.trans_le behind.forward⟩
    · intro one member
      have bounds := behind.bounds one member
      exact ⟨earlier.forward.trans bounds.1, bounds.2⟩
  increasing := by
    rw [List.pairwise_append]
    refine ⟨earlier.increasing, behind.increasing, fun one member other isOther => ?_⟩
    exact (earlier.bounds one member).2.trans_le (behind.bounds other isOther).1

/-- A diagnostic is raised only about a place about which nothing was reported. -/
theorem note (reader : Reader) (diagnostic : Diagnostic) :
    Rising reader.unreported (reader.note reader.offset diagnostic).unreported
      (reader.raise diagnostic) := by
  have used : (reader.note reader.offset diagnostic).unreported = reader.offset + 1 := if_pos rfl
  rw [used, Reader.raise, Reader.unreported]
  split
  · exact .nil (Nat.le_refl _)
  · exact ⟨Nat.le_succ _, by simp, List.pairwise_singleton _ _⟩

/-- Nothing was reported yet about the places to which a reader moves forward. -/
theorem step {reader : Reader} {text : String} (ahead : reader.Ahead text)
    (next : reader.rest ≠ []) : Rising reader.unreported reader.step.unreported [] := by
  have further := ahead.offset_lt_step next
  apply Rising.nil
  unfold Reader.unreported
  split <;> split <;> omega

end Rising

namespace Course

variable {text : String} {first later : Reader} {raised : List Raised}

/-- The places of what is raised on a course increase. -/
theorem rising (course : Course first raised later) (start : first.Ahead text) :
    Rising first.unreported later.unreported raised := by
  induction course with
  | done => exact .nil (Nat.le_refl _)
  | look => exact .nil (Nat.le_refl _)
  | advance next => exact .step start next
  | exceed => exact .nil (Nat.le_refl _)
  | placeBlanks => exact .nil (by simp [Reader.unreported])
  | report => exact .note _ _
  | unclosed kind detail opens next inside ih =>
      -- What was raised inside the group is about places before the one where it is found open.
      have opener := Rising.step start (rest_ne_nil_of_head next)
      exact (opener.append (ih start.step)).append (.note _ _)
  | append earlier _ toMiddle behind =>
      exact (toMiddle start).append (behind (earlier.ahead start).1)

end Course

/-! ## What is raised -/

/-- What is known of a diagnostic that was raised about a place in a text. -/
structure Raised.Placed (text : String) (raised : Raised) : Prop where
  place : raised.place ∈ Token.places text
  framed : raised.diagnostic.Framed text
  starts : raised.diagnostic.kind.opener? = none →
    raised.diagnostic.span.start = raised.place
  opened : raised.diagnostic.Opened text

namespace Course

variable {text : String} {first later : Reader} {raised : List Raised}

/-- A diagnostic is raised about the place of the next token, or left out. -/
theorem placed_raise {reader : Reader} {diagnostic : Diagnostic}
    (placed : Raised.Placed text ⟨reader.offset, diagnostic⟩) :
    ∀ one ∈ reader.raise diagnostic, one.Placed text := by
  unfold Reader.raise
  split
  · exact List.forall_mem_nil _
  · exact List.forall_mem_singleton.mpr placed

/-- The diagnostic about an open group goes from the token that opens it to the next one. -/
theorem placed_unclosed {reader : Reader} {opener : Token} {kind : DiagnosticKind}
    (detail : String) (opens : kind.opener? = some opener.kind)
    (ahead : reader.Ahead text) (member : opener ∈ Token.lex text)
    (behind : opener.stop ≤ reader.offset) :
    Raised.Placed text ⟨reader.offset, reader.unclosed kind detail opener⟩ := by
  have here := ahead.framed_nextSpan
  have inside : opener.stop ≤ reader.nextSpan.stop := by
    have ordered := here.ordered
    rw [Reader.nextSpan_start] at ordered
    exact behind.trans ordered
  have covers : Token.Framed text ⟨opener.start, reader.nextSpan.stop⟩ :=
    .of_lt (Token.start_mem_boundaries member) here.stop
      ((Token.start_lt_stop member).trans_le inside)
  refine ⟨ahead.offset_mem_places, ⟨covers, ?_⟩, ?_, ?_⟩
  · exact List.forall_mem_singleton.mpr (.ofToken member)
  · intro noGroup
    cases opens.symm.trans noGroup
  · intro other isOther
    obtain rfl : opener.kind = other := Option.some.inj (opens.symm.trans isOther)
    exact ⟨opener, member, rfl, rfl, inside, rfl⟩

/-- Everything that is raised on a course is about the place where it is raised. -/
theorem placed (course : Course first raised later) (start : first.Ahead text) :
    ∀ one ∈ raised, one.Placed text := by
  induction course with
  | report kind detail error noGroup =>
      exact placed_raise ⟨start.offset_mem_places, .plain start.framed_nextSpan,
        fun _ => Reader.nextSpan_start _, .plain noGroup⟩
  | unclosed kind detail opens next inside ih =>
      obtain ⟨ends, further⟩ := inside.ahead start.step
      have behind := (start.stop_le_offset_step next).trans further
      exact List.forall_mem_append.mpr
        ⟨ih start.step, placed_raise (placed_unclosed detail opens ends (start.mem next) behind)⟩
  | append earlier _ toMiddle behind =>
      exact List.forall_mem_append.mpr
        ⟨toMiddle start, behind (earlier.ahead start).1⟩
  | _ => exact List.forall_mem_nil _

/-- There is at most one diagnostic for each token but blanks, and one for the end of the text. -/
theorem length_le (course : Course first raised later) (start : first.Ahead text) :
    raised.length ≤ (Token.significant text).length + 1 := by
  have increasing := (course.rising start).increasing
  have distinct : (raised.map Raised.place).Nodup :=
    List.pairwise_map.mpr (increasing.imp Nat.ne_of_lt)
  have known : raised.map Raised.place ⊆ Token.places text := by
    intro place member
    obtain ⟨one, isOne, rfl⟩ := List.mem_map.mp member
    exact (course.placed start one isOne).place
  have bound := (List.subperm_of_subset distinct known).length_le
  simpa [Token.places, Token.significant] using bound

end Course

end Tree

namespace ParsedPath

/-- The reading of a text is a course, and its report is what is raised on it. -/
theorem course_of_parse {limits : Tree.Limits} {text : String} {parsed : ParsedPath}
    (isParsed : parse limits text = .ok parsed) {raised : List Tree.Raised}
    (course : Tree.Course (.ofText limits text) raised (Tree.readText limits text).2) :
    parsed.report = raised.map Tree.Raised.diagnostic ++ parsed.root.report := by
  obtain ⟨-, -, rfl⟩ := parse_eq_read.mp isParsed
  have report := course.report_eq
  rw [ofParsed, report]
  rfl

/-- Reports advance and stay between the tokens of the text.  Whatever is reported about a text that
is parsed covers stretches between its tokens, and what is reported about open groups starts where
they are opened.  What the reader raises, which comes first in the report, is raised about places
that increase. -/
theorem report_advances {limits : Tree.Limits} {text : String} {parsed : ParsedPath}
    (isParsed : parse limits text = .ok parsed) :
    (∀ diagnostic ∈ parsed.report, diagnostic.Framed text ∧ diagnostic.Opened text) ∧
      (∃ raised, Tree.Course (.ofText limits text) raised (Tree.readText limits text).2) ∧
      ∀ raised, Tree.Course (.ofText limits text) raised (Tree.readText limits text).2 →
        parsed.report = raised.map Tree.Raised.diagnostic ++ parsed.root.report ∧
          (raised.map Tree.Raised.place).Pairwise (· < ·) ∧
          raised.length ≤ (Token.significant text).length + 1 ∧
          ∀ one ∈ raised, one.place ∈ Token.places text ∧
            (one.diagnostic.kind.isStructural = false →
              one.diagnostic.span.start = one.place) := by
  have start := Tree.Reader.Ahead.ofText limits text
  have runs : Tree.Runs (.ofText limits text) (Tree.readText limits text).2 := Tree.runs_root _ _
  refine ⟨?_, runs, fun raised course => ⟨course_of_parse isParsed course, ?_,
    course.length_le start, fun one member => ?_⟩⟩
  · obtain ⟨raised, course⟩ := runs
    rw [course_of_parse isParsed course, List.forall_mem_append, List.forall_mem_map]
    constructor
    · intro one member
      have placed := course.placed start one member
      exact ⟨placed.framed, placed.opened⟩
    · intro diagnostic member
      obtain ⟨kind, span, detail, noGroup, framed, rfl⟩ :=
        Tree.Root.report_sound (Tree.source_of_parse isParsed) diagnostic member
      exact ⟨.plain framed, .plain (DiagnosticKind.opener?_eq_none_iff.mpr noGroup)⟩
  · exact List.pairwise_map.mpr (course.rising start).increasing
  · have placed := course.placed start one member
    exact ⟨placed.place, fun noGroup =>
      placed.starts (DiagnosticKind.opener?_eq_none_iff.mpr noGroup)⟩

/-- A kind test and a predicate that are left open, one reported over the bracket that opens the
other. -/
theorem report_advances_open :
    ∃ parsed, parse .standard "element(a, % [b" = .ok parsed ∧
      parsed.report.map (fun diagnostic => (diagnostic.kind, diagnostic.span)) =
        [(.unexpectedToken, ⟨11, 12⟩), (.unclosedKindTest, ⟨7, 14⟩),
          (.unclosedPredicate, ⟨13, 15⟩), (.predicateIgnored, ⟨13, 15⟩),
          (.invalidKindTestArgument, ⟨0, 12⟩)] ∧
      ∀ diagnostic ∈ parsed.report,
        diagnostic.Framed "element(a, % [b" ∧ diagnostic.Opened "element(a, % [b" := by
  obtain ⟨parsed, isParsed, found⟩ := exists_of_toOption
    (by decide +kernel : (parse .standard "element(a, % [b").toOption.map (fun parsed =>
        parsed.report.map fun diagnostic => (diagnostic.kind, diagnostic.span)) =
      some [(.unexpectedToken, ⟨11, 12⟩), (.unclosedKindTest, ⟨7, 14⟩),
        (.unclosedPredicate, ⟨13, 15⟩), (.predicateIgnored, ⟨13, 15⟩),
        (.invalidKindTestArgument, ⟨0, 12⟩)])
  exact ⟨parsed, isParsed, found, (report_advances isParsed).1⟩

end ParsedPath

end PathCover
