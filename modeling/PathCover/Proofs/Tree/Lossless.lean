import PathCover.Proofs.Token.Tiling
import PathCover.Proofs.Tree.Admission
import PathCover.Proofs.Tree.Nodes

/-!
# Trees lose nothing

The leaves of a tree are the tokens of its text.  Each production keeps the tokens in order: what
its elements hold and what is left to read is what was left before.  Blanks stay between the nodes:
no node but the root starts or ends with one, because the blanks in front of a node are placed
before the node is begun, and those at its end are left for what follows.
-/

namespace PathCover

theorem TokenKind.isTrivia_eq_false_iff {kind : TokenKind} :
    kind.isTrivia = false ↔ kind ≠ .whitespace := by
  cases kind <;> simp [isTrivia]

namespace Tree

open Element

/-- An element whose first and last tokens are no blanks. -/
structure Element.Trimmed (element : Element) : Prop where
  starts : ∀ first ∈ element.leaves.head?, first.kind ≠ .whitespace
  ends : ∀ last ∈ element.leaves.getLast?, last.kind ≠ .whitespace

/-- An element that starts where its first token does.  Only a path may hold no token. -/
def Element.Begun (element : Element) : Prop :=
  element.nodeKind? = some .path ∨
    ∃ first ∈ element.leaves.head?, first.start = element.span.start

/-! ## What is left to read -/

namespace Reader

/-- All tokens that are left, blanks included. -/
def tokens (reader : Reader) : List Token := reader.rest.flatMap Leaf.tokens ++ reader.trail

/-- None of the tokens that are left to consume is a blank. -/
def Visible (reader : Reader) : Prop := ∀ leaf ∈ reader.rest, leaf.kind ≠ .whitespace

variable {reader : Reader} {leaf : Leaf}

theorem trail_step (reader : Reader) : reader.step.trail = reader.trail := by
  simp only [step]
  split <;> rfl

theorem trail_placeBlanks (reader : Reader) : reader.placeBlanks.trail = reader.trail := by
  cases rest : reader.rest <;> simp [placeBlanks, takeBlanks, rest, StateT.run]

theorem tokens_placeBlanks (reader : Reader) :
    reader.frontBlanks ++ reader.placeBlanks.tokens = reader.tokens := by
  cases rest : reader.rest <;>
    simp [tokens, frontBlanks, placeBlanks, takeBlanks, rest, StateT.run, Leaf.tokens, Leaf.bare]

theorem tokens_step (next : reader.rest.head? = some leaf) :
    leaf.tokens ++ reader.step.tokens = reader.tokens := by
  obtain ⟨tail, rest⟩ := List.head?_eq_some_iff.mp next
  simp [tokens, rest_step, trail_step, rest]

theorem frontBlanks_of_head (next : reader.rest.head? = some leaf) :
    reader.frontBlanks = leaf.blanks := by
  obtain ⟨tail, rest⟩ := List.head?_eq_some_iff.mp next
  simp [frontBlanks, takeBlanks, rest, StateT.run]

theorem head_placeBlanks (next : reader.rest.head? = some leaf) :
    reader.placeBlanks.rest.head? = some leaf.bare := by
  obtain ⟨tail, rest⟩ := List.head?_eq_some_iff.mp next
  simp [placeBlanks, takeBlanks, rest, StateT.run]

/-- Nothing is in front of a token whose blanks were placed. -/
theorem frontBlanks_placeBlanks (reader : Reader) : reader.placeBlanks.frontBlanks = [] := by
  cases rest : reader.rest with
  | nil => simp [frontBlanks, placeBlanks, takeBlanks, rest, StateT.run]
  | cons leaf tail =>
      rw [frontBlanks_of_head (head_placeBlanks (by rw [rest]; rfl))]
      rfl

/-- Consuming a token makes no difference between blanks that were placed and others. -/
theorem step_placeBlanks (next : reader.rest.head? = some leaf) :
    reader.placeBlanks.step = reader.step := by
  obtain ⟨tail, rest⟩ := List.head?_eq_some_iff.mp next
  have spent : reader.placeBlanks.isSpent = reader.isSpent := by simp [isSpent]
  rw [step, step, spent]
  cases reader.isSpent <;> simp [placeBlanks, takeBlanks, rest, StateT.run, exceed]

end Reader

/-! ## Keeping tokens -/

/-- From one reader to a later one, the tokens that were consumed are those of `elements`, in which
every node starts with its first token and no node starts or ends with a blank, unless a limit was
hit. -/
structure Yields (reader : Reader) (elements : List Element) (later : Reader) : Prop where
  tokens : leavesOf elements ++ later.tokens = reader.tokens
  trail : later.trail = reader.trail
  visible : later.Visible
  within : later.exceeded = none → reader.exceeded = none
  trimmed : later.exceeded = none → ∀ node ∈ nodesOf elements, node.Trimmed
  begun : later.exceeded = none → ∀ node ∈ nodesOf elements, node.Begun

/-- What is consumed does not end with a blank either, so that it may end a node. -/
structure Keeps (reader : Reader) (elements : List Element) (later : Reader) : Prop extends
    Yields reader elements later where
  ends : later.exceeded = none →
    ∀ last ∈ (leavesOf elements).getLast?, last.kind ≠ .whitespace

theorem Reader.visible_placeBlanks {reader : Reader} (visible : reader.Visible) :
    reader.placeBlanks.Visible := by
  cases rest : reader.rest with
  | nil => simp [Reader.Visible, Reader.placeBlanks, takeBlanks, rest, StateT.run]
  | cons leaf tail =>
      rw [Reader.Visible, rest] at visible
      simpa [Reader.Visible, Reader.placeBlanks, takeBlanks, rest, StateT.run, Leaf.kind,
        Leaf.bare] using visible

theorem Yields.andThen {reader middle later : Reader} {elements others : List Element}
    (first : Yields reader elements middle) (second : Yields middle others later) :
    Yields reader (elements ++ others) later := by
  refine ⟨?_, second.trail.trans first.trail, second.visible, ?_, ?_, ?_⟩
  · rw [leavesOf_append, List.append_assoc, second.tokens, first.tokens]
  · intro within
    exact first.within (second.within within)
  · intro within
    rw [nodesOf_append]
    exact List.forall_mem_append.mpr
      ⟨first.trimmed (second.within within), second.trimmed within⟩
  · intro within
    rw [nodesOf_append]
    exact List.forall_mem_append.mpr ⟨first.begun (second.within within), second.begun within⟩

namespace Keeps

variable {reader middle later : Reader} {elements others : List Element} {leaf : Leaf}

theorem done (visible : reader.Visible) : Keeps reader [] reader := by
  refine ⟨⟨by simp, rfl, visible, id, ?_, ?_⟩, ?_⟩
  · simp
  · simp
  · simp

theorem andThen (first : Keeps reader elements middle) (second : Keeps middle others later) :
    Keeps reader (elements ++ others) later := by
  refine ⟨first.toYields.andThen second.toYields, ?_⟩
  intro within last isLast
  rw [leavesOf_append, List.getLast?_append, Option.mem_def, Option.or_eq_some_iff] at isLast
  rcases isLast with isLast | ⟨_, isLast⟩
  · exact second.ends within last isLast
  · exact first.ends (second.within within) last isLast

/-- Nothing is consumed by looking. -/
theorem look (keeps : Keeps reader elements later) : Keeps reader elements later.spend :=
  ⟨⟨keeps.tokens, keeps.trail, keeps.visible, keeps.within, keeps.trimmed, keeps.begun⟩,
    keeps.ends⟩

theorem looked (keeps : Keeps reader.spend elements later) : Keeps reader elements later :=
  ⟨⟨keeps.tokens, keeps.trail, keeps.visible, keeps.within, keeps.trimmed, keeps.begun⟩,
    keeps.ends⟩

theorem note (keeps : Keeps reader elements later) (place : Nat) (diagnostic : Diagnostic) :
    Keeps reader elements (later.note place diagnostic) :=
  ⟨⟨keeps.tokens, keeps.trail, keeps.visible, keeps.within, keeps.trimmed, keeps.begun⟩,
    keeps.ends⟩

theorem exceed (keeps : Keeps reader elements later) (limit : Limit) :
    Keeps reader elements (later.exceed limit) := by
  refine ⟨⟨keeps.tokens, keeps.trail, keeps.visible, ?_, ?_, ?_⟩, ?_⟩ <;>
    exact fun within => absurd within (Reader.exceeded_exceed later limit)

theorem reportHere (keeps : Keeps reader elements later) (kind : DiagnosticKind)
    (detail : Option String) :
    Keeps reader elements ((reportHere kind detail).run later).2 :=
  keeps.look.note _ _

/-- A token in view is consumed with the blanks in front of it. -/
theorem advance (visible : reader.Visible) (next : reader.rest.head? = some leaf) :
    Keeps reader leaf.elements reader.step := by
  have member : leaf ∈ reader.rest := List.mem_of_mem_head? next
  refine ⟨⟨?_, reader.trail_step, ?_, reader.exceeded_step, by simp, by simp⟩, ?_⟩
  · rw [Leaf.leavesOf_elements, Reader.tokens_step next]
  · intro other isOther
    rw [Reader.rest_step] at isOther
    exact visible other (List.mem_of_mem_tail isOther)
  · intro _ last isLast
    rw [Leaf.leavesOf_elements, Leaf.tokens, List.getLast?_concat, Option.mem_some_iff] at isLast
    rw [← isLast]
    exact visible leaf member

/-- A token in view whose blanks were placed is consumed alone. -/
theorem bare (visible : reader.Visible) (next : reader.rest.head? = some leaf) :
    Keeps reader.placeBlanks leaf.bare.elements reader.step := by
  have keeps := Keeps.advance (Reader.visible_placeBlanks visible) (Reader.head_placeBlanks next)
  rwa [Reader.step_placeBlanks next] at keeps

/-- What is consumed behind placed blanks starts with the next token. -/
theorem head (keeps : Keeps reader.placeBlanks elements later) :
    ∀ first ∈ (leavesOf elements).head?,
      ∃ leaf, reader.placeBlanks.rest.head? = some leaf ∧ first = leaf.token := by
  intro first isFirst
  obtain ⟨others, split⟩ := List.head?_eq_some_iff.mp isFirst
  have tokens := keeps.tokens
  cases rest : reader.placeBlanks.rest with
  | nil =>
      -- Only the blanks at the end are left, and they are never consumed.
      have lengths := congrArg List.length tokens
      simp [Reader.tokens, rest, keeps.trail, split] at lengths
      omega
  | cons leaf tail =>
      have next : reader.placeBlanks.rest.head? = some leaf := by rw [rest]; rfl
      have placed : leaf.blanks = [] := by
        rw [← Reader.frontBlanks_of_head next, Reader.frontBlanks_placeBlanks]
      rw [← Reader.tokens_step next, Leaf.tokens, placed, split] at tokens
      exact ⟨leaf, rfl, (List.cons.inj tokens).1⟩

/-- What is consumed behind placed blanks does not start with a blank. -/
theorem starts (keeps : Keeps reader.placeBlanks elements later) (visible : reader.Visible) :
    ∀ first ∈ (leavesOf elements).head?, first.kind ≠ .whitespace := by
  intro first isFirst
  obtain ⟨leaf, next, rfl⟩ := keeps.head first isFirst
  exact Reader.visible_placeBlanks visible leaf (List.mem_of_mem_head? next)

/-- A node is made of what is consumed behind the blanks in front of it. -/
theorem toNode (keeps : Keeps reader.placeBlanks elements later) (visible : reader.Visible)
    (kind : NodeKind)
    (filled : later.exceeded = none → kind = .path ∨ leavesOf elements ≠ []) :
    Yields reader
      (blankElements reader.frontBlanks ++ [.node kind reader.placeBlanks.offset elements])
      later := by
  refine ⟨?_, keeps.trail.trans reader.trail_placeBlanks, keeps.visible, ?_, ?_, ?_⟩
  · rw [← reader.tokens_placeBlanks, ← keeps.tokens]
    simp
  · intro within
    rw [← Reader.exceeded_placeBlanks]
    exact keeps.within within
  · intro within
    have whole : (Element.node kind reader.placeBlanks.offset elements).Trimmed := by
      constructor
      · rw [leaves_node]
        exact keeps.starts visible
      · rw [leaves_node]
        exact keeps.ends within
    simpa using ⟨whole, keeps.trimmed within⟩
  · intro within
    have whole : (Element.node kind reader.placeBlanks.offset elements).Begun := by
      rcases filled within with rfl | notEmpty
      · exact .inl rfl
      · obtain ⟨first, others, split⟩ := List.exists_cons_of_ne_nil notEmpty
        have isFirst : first ∈ (leavesOf elements).head? := by rw [split]; rfl
        obtain ⟨leaf, next, rfl⟩ := keeps.head first isFirst
        refine .inr ⟨leaf.token, by rwa [leaves_node], ?_⟩
        obtain ⟨tail, rest⟩ := List.head?_eq_some_iff.mp next
        simp [span, Reader.offset, rest]
    simpa using ⟨whole, keeps.begun within⟩

/-- A node that holds something ends as what it is made of does. -/
theorem node (visible : reader.Visible) (kind : NodeKind)
    (keeps : Keeps reader.placeBlanks elements later)
    (filled : later.exceeded = none → leavesOf elements ≠ []) :
    Keeps reader
      (blankElements reader.frontBlanks ++ [.node kind reader.placeBlanks.offset elements])
      later := by
  refine ⟨keeps.toNode visible kind fun within => .inr (filled within), ?_⟩
  intro within last isLast
  rw [leavesOf_append, leavesOf_cons, leaves_node, leavesOf_nil, List.append_nil,
    List.getLast?_append, Option.mem_def, Option.or_eq_some_iff] at isLast
  rcases isLast with isLast | ⟨nothing, _⟩
  · exact keeps.ends within last isLast
  · exact absurd (List.getLast?_eq_none_iff.mp nothing) (filled within)

/-- A node that starts with the next token. -/
theorem group (visible : reader.Visible) (next : reader.rest.head? = some leaf)
    (kind : NodeKind) (keeps : Keeps reader.step elements later) :
    Keeps reader (blankElements leaf.blanks ++
      [.node kind leaf.token.start (leaf.bare.elements ++ elements)]) later := by
  obtain ⟨tail, placed⟩ := List.head?_eq_some_iff.mp (Reader.head_placeBlanks next)
  have starts : reader.placeBlanks.offset = leaf.token.start := by
    rw [Reader.offset, placed]
    rfl
  rw [← Reader.frontBlanks_of_head next, ← starts]
  apply Keeps.node visible kind ((Keeps.bare visible next).andThen keeps)
  intro _
  simp [Leaf.tokens]

end Keeps

/-! ## Parts of a step -/

section Parts

variable {reader : Reader}

theorem keeps_eat (kind : TokenKind) (visible : reader.Visible) :
    Keeps reader (optionElements Leaf.elements ((eat kind).run reader).1)
      ((eat kind).run reader).2 := by
  rcases eat_cases kind reader with ⟨leaf, next, _, ate⟩ | missed
  · rw [ate]
    exact .looked (.advance visible next)
  · rw [missed]
    exact .look (.done visible)

theorem keeps_close (closer : TokenKind) (kind : DiagnosticKind) (detail : String)
    (opener : Token) (visible : reader.Visible) :
    Keeps reader (optionElements Leaf.elements ((close closer kind detail opener).run reader).1)
      ((close closer kind detail opener).run reader).2 := by
  have toCloser := keeps_eat closer visible
  rw [close, run_bind]
  cases found : ((eat closer).run reader).1 with
  | some leaf =>
      rw [found] at toCloser
      exact toCloser
  | none =>
      rw [found] at toCloser
      exact .note (.look toCloser) _ _

theorem keeps_nameTest {first : Leaf} (visible : reader.Visible)
    (next : reader.rest.head? = some first) :
    Keeps reader ((nameTest first).run reader).1.elements ((nameTest first).run reader).2 := by
  have toColon := keeps_eat .colon (Keeps.advance visible next).visible
  rw [nameTest, advance_then, run_bind]
  cases found : ((eat .colon).run reader.step).1 with
  | none =>
      rw [found] at toColon
      simp only [run_pure, NameTest.elements_mk]
      exact .group visible next _ toColon
  | some colon =>
      rw [found] at toColon
      simp only [lookFor_then]
      split
      · rename_i second inView
        have toSecond := toColon.andThen
          (.looked (.advance toColon.visible (head_of_filter _ inView).1))
        simp only [advance_then, run_pure, NameTest.elements_mk]
        exact .group visible next _ toSecond
      · have nothing := Keeps.reportHere (.look (.done toColon.visible)) .expectedName
          (some "after `:`")
        simp only [run_bind, run_pure, NameTest.elements_mk]
        exact .group visible next _ (toColon.andThen nothing)

/-- A reading whose elements are what it consumes. -/
def KeepsAll {α : Type} (elements : α → List Element) (reading : Reading α) : Prop :=
  ∀ {reader : Reader}, reader.Visible →
    Keeps reader (elements (reading.run reader).1) (reading.run reader).2

theorem keeps_kindTestWith {inner : Reading (List Argument)} (depth : Nat)
    {keyword opener : Leaf} (visible : reader.Visible)
    (next : reader.rest.head? = some keyword) (second : reader.rest.tail.head? = some opener)
    (keepsInner : KeepsAll Argument.elementsOf inner) :
    Keeps reader
      (optionElements KindTest.elements
        ((kindTestWith inner depth keyword opener).run reader).1)
      ((kindTestWith inner depth keyword opener).run reader).2 := by
  rw [kindTestWith, run_bind]
  rcases run_mayOpen depth reader with opened | refused
  · simp only [opened, if_true, run_bind, run_advance, run_look, run_pure, optionElements,
      KindTest.elements_mk]
    have visibleKeyword := (Keeps.advance visible next).visible
    have toOpener : Keeps reader.step opener.elements reader.step.spend.step :=
      .looked (.advance visibleKeyword (by simpa using second))
    have toInner := toOpener.andThen (keepsInner toOpener.visible)
    have toCloser := toInner.andThen (keeps_close .parenClose .unclosedKindTest
      "kind test is never closed" opener.token toInner.visible)
    exact .group visible next _ toCloser
  · rw [refused]
    exact .exceed (.done visible) _

theorem keeps_stray {leaf : Leaf} (visible : reader.Visible)
    (next : reader.rest.head? = some leaf) :
    Keeps reader ((stray leaf).run reader).1.elements ((stray leaf).run reader).2 := by
  have nothing := Keeps.reportHere (.look (.done visible)) .unexpectedToken
    (some ("`" ++ leaf.token.text ++ "`"))
  have consumed := Keeps.advance nothing.visible next
  simp only [stray, run_bind, run_look, run_advance, run_pure, Argument.elements]
  exact nothing.andThen (.group nothing.visible next .error (.done consumed.visible))

theorem keeps_arguments (fuel depth : Nat) :
    KeepsAll Argument.elementsOf (arguments fuel depth) := by
  intro reader visible
  induction fuel generalizing depth reader with
  | zero => exact .done visible
  | succ fuel ih =>
      simp only [arguments, run_ifEnded]
      split
      · exact .done visible
      · simp only [run_bind, run_lookFor]
        split
        · exact .look (.done visible)
        · rename_i leaf found
          have next := (head_of_filter (!·.endsArguments) found).1
          have inView : Keeps reader [] reader.spend.spend := .look (.look (.done visible))
          have alone : Keeps reader leaf.elements reader.spend.spend.step :=
            inView.andThen (.advance inView.visible next)
          simp only [run_bind, run_look]
          split
          · simp only [run_bind, run_secondIf]
            split
            · rename_i opener after
              simp only [run_bind, run_pure, Argument.elementsOf_toArgument]
              have test := inView.andThen (keeps_kindTestWith depth inView.visible next
                (head_of_second after).1 fun {_} inside => ih (depth + 1) inside)
              exact test.andThen (ih depth test.visible)
            · simp only [run_bind, run_pure]
              have test := inView.andThen (keeps_nameTest inView.visible next)
              exact test.andThen (ih depth test.visible)
          · simp only [run_bind, run_pure]
            have test := inView.andThen (keeps_nameTest inView.visible next)
            exact test.andThen (ih depth test.visible)
          all_goals simp only [run_bind, run_pure]
          · exact alone.andThen (ih depth alone.visible)
          · exact alone.andThen (ih depth alone.visible)
          · exact alone.andThen (ih depth alone.visible)
          · have argument := inView.andThen (keeps_stray inView.visible next)
            exact argument.andThen (ih depth argument.visible)

theorem keeps_predicateWith {inner : Reading (List PredicateItem)} (depth : Nat)
    {opener : Leaf} (visible : reader.Visible) (next : reader.rest.head? = some opener)
    (keepsInner : KeepsAll PredicateItem.elementsOf inner) :
    Keeps reader
      (optionElements Predicate.elements ((predicateWith inner depth opener).run reader).1)
      ((predicateWith inner depth opener).run reader).2 := by
  rw [predicateWith, run_bind]
  rcases run_mayOpen depth reader with opened | refused
  · simp only [opened, if_true, run_bind, run_advance, run_look, run_pure, optionElements,
      Predicate.elements_mk]
    have inView : Keeps reader [] reader.spend := .look (.done visible)
    have toInner := keepsInner (Keeps.advance inView.visible next).visible
    have toCloser := toInner.andThen (keeps_close .bracketClose .unclosedPredicate
      "predicate is never closed" opener.token toInner.visible)
    exact inView.andThen (.group inView.visible next _ toCloser)
  · rw [refused]
    exact .exceed (.done visible) _

theorem keeps_predicateItems (fuel depth : Nat) :
    KeepsAll PredicateItem.elementsOf (predicateItems fuel depth) := by
  intro reader visible
  induction fuel generalizing depth reader with
  | zero => exact .done visible
  | succ fuel ih =>
      simp only [predicateItems, run_ifEnded]
      split
      · exact .done visible
      · simp only [run_bind, run_look]
        split
        · exact .look (.done visible)
        · rename_i leaf next
          have inView : Keeps reader [] reader.spend := .look (.done visible)
          split
          · exact inView
          · simp only [run_bind, run_pure, PredicateItem.elementsOf_toItem]
            have predicate := inView.andThen (keeps_predicateWith depth inView.visible next
              fun {_} inside => ih (depth + 1) inside)
            exact predicate.andThen (ih depth predicate.visible)
          · simp only [run_bind, run_advance, run_pure]
            have alone := inView.andThen (.advance inView.visible next)
            exact alone.andThen (ih depth alone.visible)

theorem keeps_predicates (fuel : Nat) :
    KeepsAll (List.flatMap Predicate.elements) (predicates fuel) := by
  intro reader visible
  induction fuel generalizing reader with
  | zero => exact .done visible
  | succ fuel ih =>
      simp only [predicates, run_ifHalted]
      split
      · exact .done visible
      · simp only [run_bind, run_lookFor]
        split
        · exact .look (.done visible)
        · rename_i opener found
          have next := (head_of_filter (fun kind => decide (kind = .bracketOpen)) found).1
          have inView : Keeps reader [] reader.spend := .look (.done visible)
          simp only [run_bind, run_pure, flatMap_toList_append]
          have predicate := inView.andThen (keeps_predicateWith 0 inView.visible next
            (keeps_predicateItems fuel 1))
          exact predicate.andThen (ih predicate.visible)

theorem keeps_nodeTest (fuel : Nat) (context : String) :
    KeepsAll (optionElements NodeTest.elements) (nodeTest fuel context) := by
  intro reader visible
  have inView : Keeps reader [] reader.spend := .look (.done visible)
  simp only [nodeTest, run_bind, run_look]
  split
  · exact inView.reportHere _ _
  · rename_i leaf next
    split
    · simp only [run_bind, run_secondIf]
      split
      · rename_i opener after
        have test := inView.andThen (keeps_kindTestWith 0 inView.visible next
          (head_of_second after).1 (keeps_arguments fuel 1))
        simp only [run_bind, run_pure, optionElements_map]
        exact test
      · exact inView.andThen (keeps_nameTest inView.visible next)
    · exact inView.andThen (keeps_nameTest inView.visible next)
    · exact inView.reportHere _ _

theorem NameTest.leavesOf_elements_ne_nil (test : NameTest) : leavesOf test.elements ≠ [] := by
  simp [NameTest.elements, NameTest.element, Leaf.tokens]

theorem KindTest.leavesOf_elements_ne_nil (test : KindTest) : leavesOf test.elements ≠ [] := by
  simp [KindTest.elements, KindTest.element, Leaf.tokens]

/-- A node test that starts with the next token holds it, unless a limit was hit. -/
theorem nodeTest_filled {fuel : Nat} {context : String} {leaf : Leaf}
    (next : reader.rest.head? = some leaf) (starts : leaf.kind.startsNameTest = true)
    (within : ((nodeTest fuel context).run reader).2.exceeded = none) :
    leavesOf (optionElements NodeTest.elements ((nodeTest fuel context).run reader).1) ≠ [] := by
  simp only [nodeTest, look_then, next] at within ⊢
  rcases startsNameTest_cases starts with isName | isStar
  · simp only [isName, secondIf_then] at within ⊢
    split
    · rename_i opener after
      simp only [after, run_bind, kindTestWith] at within ⊢
      rcases run_mayOpen 0 reader.spend with opened | refused
      · simp only [opened, if_true, run_bind, run_pure, Option.map_some]
        exact KindTest.leavesOf_elements_ne_nil _
      · rw [refused] at within
        exact absurd within (Reader.exceeded_exceed _ _)
    · exact NameTest.leavesOf_elements_ne_nil _
  · simp only [isStar]
    exact NameTest.leavesOf_elements_ne_nil _

/-- A step without its predicates, the blanks in front of which were placed. -/
theorem keeps_stepBody (fuel : Nat) (visible : reader.Visible) (placed : reader.frontBlanks = []) :
    Keeps reader ((stepBody fuel).run reader).1.elements ((stepBody fuel).run reader).2 := by
  have inView : Keeps reader [] reader.spend := .look (.done visible)
  have bare : ∀ context, Keeps reader
      (StepBody.tested none ((nodeTest fuel context).run reader.spend).1).elements
      ((nodeTest fuel context).run reader.spend).2 := fun context =>
    inView.andThen (keeps_nodeTest fuel context inView.visible)
  simp only [stepBody, run_bind, run_look]
  split
  · exact bare _
  · rename_i leaf next
    have alone := inView.andThen (.advance inView.visible next)
    split
    · exact alone
    · exact alone
    · exact alone.andThen (keeps_nodeTest fuel _ alone.visible)
    · simp only [run_bind, run_secondIf]
      split
      · rename_i colons after
        simp only [run_bind, run_advance, run_pure]
        have toColons := Keeps.advance alone.visible (by simpa using (head_of_second after).1)
        have axis := Keeps.group inView.visible next .axisSpec toColons
        have noBlanks : leaf.blanks = [] := (Reader.frontBlanks_of_head next).symm.trans placed
        have bare : leaf.bare = leaf := by rw [Leaf.bare, ← noBlanks]
        rw [noBlanks, bare] at axis
        exact inView.andThen (axis.andThen (keeps_nodeTest fuel _ axis.visible))
      · exact bare _
    · exact bare _

/-- A step holds the token that it starts with, unless a limit was hit. -/
theorem stepBody_filled {fuel : Nat} {leaf : Leaf} (next : reader.rest.head? = some leaf)
    (starts : leaf.kind.startsStep = true)
    (within : ((stepBody fuel).run reader).2.exceeded = none) :
    leavesOf ((stepBody fuel).run reader).1.elements ≠ [] := by
  simp only [stepBody, look_then, next] at within ⊢
  cases kind : leaf.kind <;> rw [kind] at starts <;> try cases starts
  case dotDot | dot =>
    simp only [run_bind, run_advance, run_pure, StepBody.elements]
    simp [Leaf.tokens]
  case «at» =>
    simp only [run_bind, run_advance, run_pure, StepBody.elements, optionElements,
      AxisMark.elements]
    simp [Leaf.tokens]
  case star =>
    simp only [kind] at within ⊢
    exact nodeTest_filled next (by rw [kind]; rfl) within
  case name =>
    simp only [kind, secondIf_then] at within ⊢
    split
    · simp only [run_bind, run_advance, run_pure, StepBody.elements, optionElements,
        AxisMark.elements]
      simp [Leaf.tokens]
    · rename_i missing
      simp only [missing] at within
      exact nodeTest_filled next (by rw [kind]; rfl) within

theorem keeps_step (fuel : Nat) {leaf : Leaf} (visible : reader.Visible)
    (next : reader.rest.head? = some leaf) (starts : leaf.kind.startsStep = true) :
    Keeps reader ((step fuel).run reader).1.elements ((step fuel).run reader).2 := by
  have placed := Reader.visible_placeBlanks visible
  have body := keeps_stepBody fuel placed reader.frontBlanks_placeBlanks
  have following := keeps_predicates fuel body.visible
  simp only [step, run_bind, run_takeBlanks, run_offset, run_pure]
  apply Keeps.node visible .step (body.andThen following)
  intro within
  rw [leavesOf_append]
  apply List.append_ne_nil_of_left_ne_nil
  exact stepBody_filled (Reader.head_placeBlanks next) starts (following.within within)

theorem keeps_stepIfAny (fuel : Nat) :
    KeepsAll (optionElements Step.elements) (stepIfAny fuel) := by
  intro reader visible
  have inView : Keeps reader [] reader.spend := .look (.done visible)
  simp only [stepIfAny, run_bind, run_lookFor]
  split
  · rename_i leaf found
    obtain ⟨next, starts⟩ := head_of_filter TokenKind.startsStep found
    exact inView.andThen (keeps_step fuel inView.visible next starts)
  · rw [run_ifEnded]
    split <;> exact inView.reportHere _ _

theorem keeps_laterParts (fuel : Nat) :
    KeepsAll (List.flatMap PathPart.elements) (laterParts fuel) := by
  intro reader visible
  induction fuel generalizing reader with
  | zero => exact .done visible
  | succ fuel ih =>
      simp only [laterParts, run_ifHalted]
      split
      · exact .done visible
      · simp only [run_bind, run_lookFor]
        split
        · exact .look (.done visible)
        · rename_i separator found
          have next := (head_of_filter TokenKind.isSeparator found).1
          have inView : Keeps reader [] reader.spend := .look (.done visible)
          have alone := inView.andThen (.advance inView.visible next)
          have step := alone.andThen (keeps_stepIfAny fuel alone.visible)
          have whole := step.andThen (ih step.visible)
          simp only [run_bind, run_advance, run_pure, List.cons_append, List.flatMap_cons,
            flatMap_toList_append, optionElements_map]
          rw [List.append_assoc] at whole
          exact whole

theorem keeps_partsFromStep (fuel : Nat) :
    KeepsAll (List.flatMap PathPart.elements) (partsFromStep fuel) := by
  intro reader visible
  have step := keeps_stepIfAny fuel visible
  have whole := step.andThen (keeps_laterParts fuel step.visible)
  simp only [partsFromStep, run_bind, run_pure, flatMap_toList_append, optionElements_map]
  exact whole

theorem keeps_pathParts (fuel : Nat) :
    KeepsAll (List.flatMap PathPart.elements) (pathParts fuel) := by
  intro reader visible
  have inView : Keeps reader [] reader.spend := .look (.done visible)
  simp only [pathParts, run_bind, run_lookFor]
  split
  · exact inView.andThen (keeps_partsFromStep fuel inView.visible)
  · rename_i separator found
    have next := (head_of_filter TokenKind.isSeparator found).1
    have alone : Keeps reader separator.elements reader.spend.spend.step :=
      inView.look.andThen (.advance inView.look.visible next)
    simp only [run_bind, run_look, run_advance, run_ite]
    split
    · exact alone.andThen (.done alone.visible)
    · exact alone.andThen (keeps_partsFromStep fuel alone.visible)

theorem yields_pathIfAny (fuel : Nat) (visible : reader.Visible) :
    Yields reader (optionElements Path.elements ((pathIfAny fuel).run reader).1)
      ((pathIfAny fuel).run reader).2 := by
  rw [pathIfAny, run_ifEnded]
  split
  · exact ((Keeps.done visible).reportHere _ _).toYields
  · have parts := keeps_pathParts fuel (Reader.visible_placeBlanks visible)
    exact parts.toNode visible .path fun _ => .inl rfl

theorem keeps_forM_advance {leaves : List Leaf} (visible : reader.Visible)
    (all : reader.rest = leaves) :
    Keeps reader (leaves.flatMap Leaf.elements) ((leaves.forM fun _ => advance).run reader).2 := by
  induction leaves generalizing reader with
  | nil => exact .done visible
  | cons leaf leaves ih =>
      have first := Keeps.advance visible (by rw [all]; rfl)
      exact first.andThen (ih first.visible (by rw [Reader.rest_step, all]; rfl))

/-- What follows the path is not empty, unless the text has ended. -/
theorem keeps_surplus (visible : reader.Visible) (rest : reader.rest ≠ []) :
    Keeps reader (surplus.run reader).1.elements (surplus.run reader).2 := by
  simp only [surplus, run_bind, run_takeBlanks, run_offset, run_get, run_pure]
  apply Keeps.node visible .error (keeps_forM_advance (Reader.visible_placeBlanks visible) rfl)
  intro _
  obtain ⟨leaf, tail, split⟩ := List.exists_cons_of_ne_nil rest
  have next : reader.rest.head? = some leaf := by rw [split]; rfl
  obtain ⟨others, placed⟩ := List.head?_eq_some_iff.mp (Reader.head_placeBlanks next)
  simp [placed, Leaf.tokens]

theorem keeps_surplusIfAny (visible : reader.Visible) :
    Keeps reader (optionElements Surplus.elements (surplusIfAny.run reader).1)
      (surplusIfAny.run reader).2 := by
  rw [surplusIfAny, run_ifEnded]
  split
  · exact .done visible
  · rename_i notEnded
    have rest : reader.rest ≠ [] := by
      intro nothing
      simp [Reader.hasEnded, nothing] at notEnded
    have reported : ∀ detail, Keeps reader []
        ((reportHere .trailingInput detail).run reader.spend).2 := fun detail =>
      (Keeps.look (.done visible)).reportHere _ _
    simp only [run_bind, run_look, run_pure]
    exact (reported _).andThen (keeps_surplus (reported _).visible rest)

end Parts

/-! ## Whole texts -/

namespace Reader

/-- Attaching blanks to tokens loses none. -/
theorem tokens_attachBlanks (tokens : List Token) :
    (attachBlanks tokens).1.flatMap Leaf.tokens ++ (attachBlanks tokens).2 = tokens := by
  induction tokens with
  | nil => rfl
  | cons token rest ih =>
      cases attached : attachBlanks rest with
      | mk leaves trail =>
          rw [attached] at ih
          cases trivia : token.kind.isTrivia <;>
            cases leaves <;> simpa [attachBlanks, attached, trivia, Leaf.tokens] using ih

theorem tokens_ofText (limits : Limits) (text : String) :
    (ofText limits text).tokens = Token.lex text :=
  tokens_attachBlanks _

theorem visible_ofText (limits : Limits) (text : String) : (ofText limits text).Visible := by
  intro leaf member
  have kept : leaf.token ∈ (Token.lex text).filter (!·.kind.isTrivia) := by
    rw [← map_token_attachBlanks]
    exact List.mem_map_of_mem member
  apply TokenKind.isTrivia_eq_false_iff.mp
  simpa [Leaf.kind] using (List.mem_filter.mp kept).2

end Reader

/-- What the root of a tree holds in front of the blanks at the end. -/
theorem yields_root (fuel : Nat) {reader : Reader} (visible : reader.Visible) :
    Yields reader
      (optionElements Path.elements ((root fuel).run reader).1.path ++
        optionElements Surplus.elements ((root fuel).run reader).1.surplus)
      ((root fuel).run reader).2 := by
  have path := yields_pathIfAny fuel visible
  exact path.andThen (keeps_surplusIfAny path.visible).toYields

/-- Where no limit is hit, a tree holds all tokens, and its nodes start and end with tokens that are
no blanks. -/
theorem lossless_root (fuel : Nat) {reader : Reader} (visible : reader.Visible)
    (within : ((root fuel).run reader).2.exceeded = none) :
    ((root fuel).run reader).1.element.leaves = reader.tokens ∧
      ∀ node ∈ ((root fuel).run reader).1.element.inner, node.Trimmed := by
  have nothingLeft := rest_root fuel reader within
  have whole := yields_root fuel visible
  have trail : ((root fuel).run reader).2.tokens = ((root fuel).run reader).1.trail := by
    rw [Reader.tokens, nothingLeft]
    rfl
  constructor
  · rw [Root.element, leaves_node, leavesOf_append, leavesOf_blankElements, ← trail]
    exact whole.tokens
  · rw [Root.element, Element.inner, children, nodesOf_append, nodesOf_blankElements,
      List.append_nil]
    exact whole.trimmed within

/-- Where no limit is hit, the nodes of a tree start with their first tokens. -/
theorem begun_root (fuel : Nat) {reader : Reader} (visible : reader.Visible)
    (within : ((root fuel).run reader).2.exceeded = none) :
    ∀ node ∈ ((root fuel).run reader).1.element.inner, node.Begun := by
  rw [Root.element, Element.inner, children, nodesOf_append, nodesOf_blankElements,
    List.append_nil]
  exact (yields_root fuel visible).begun within

end Tree

namespace ParsedPath

variable {limits : Tree.Limits} {text : String} {parsed : ParsedPath}

/-- The tree of a parsed text is what its reader made, and no limit was hit. -/
theorem root_eq_readText (isParsed : parse limits text = .ok parsed) :
    parsed.root = (Tree.readText limits text).1 ∧
      (Tree.readText limits text).2.exceeded = none := by
  obtain ⟨-, within, rfl⟩ := parse_eq_read.mp isParsed
  exact ⟨rfl, within⟩

/-- The leaves of the tree of a parsed text are the tokens of the text. -/
theorem leaves_of_parse (isParsed : parse limits text = .ok parsed) :
    parsed.root.element.leaves = Token.lex text := by
  obtain ⟨isRoot, within⟩ := root_eq_readText isParsed
  have whole := Tree.lossless_root _ (Tree.Reader.visible_ofText limits text) within
  rw [Tree.Reader.tokens_ofText, ← Tree.readText, ← isRoot] at whole
  exact whole.1

/-- The tree of a text is lossless, be the text well-formed or not: its leaves are the tokens of the
text, its own text and span are those of the text, and no node in it starts or ends with a blank. -/
theorem tree_lossless (isParsed : parse limits text = .ok parsed) :
    parsed.root.element.leaves = Token.lex text ∧
      parsed.root.element.text = text ∧
      parsed.root.element.span = ⟨0, text.utf8ByteSize⟩ ∧
      ∀ node ∈ parsed.root.element.inner, node.Trimmed := by
  obtain ⟨isRoot, within⟩ := root_eq_readText isParsed
  have whole := Tree.lossless_root _ (Tree.Reader.visible_ofText limits text) within
  rw [Tree.Reader.tokens_ofText, ← Tree.readText, ← isRoot] at whole
  obtain ⟨leaves, trimmed⟩ := whole
  refine ⟨leaves, ?_, ?_, trimmed⟩
  · rw [Tree.Element.text, leaves, Token.join_lex]
  · have width : parsed.root.element.width = text.utf8ByteSize := by
      rw [Tree.Element.width, leaves]
      exact Token.width_lex text
    rw [← width, Tree.Root.element, Tree.Element.span, Nat.zero_add]

/-- The blanks around a missing name, an open predicate and a surplus bracket. -/
theorem tree_lossless_malformed :
    ∃ parsed, parse .standard " / a : [ b ( ] ] c " = .ok parsed ∧
      parsed.isValid = false ∧ parsed.root.element.leaves.length = 19 ∧
      parsed.root.element.text = " / a : [ b ( ] ] c " ∧
      ∀ node ∈ parsed.root.element.inner, node.Trimmed := by
  obtain ⟨parsed, isParsed, isRefused⟩ := exists_of_toOption
    (by decide +kernel :
      (parse .standard " / a : [ b ( ] ] c ").toOption.map isValid = some false)
  obtain ⟨leaves, isText, -, trimmed⟩ := tree_lossless isParsed
  refine ⟨parsed, isParsed, isRefused, ?_, isText, trimmed⟩
  rw [leaves]
  decide +kernel

end ParsedPath

end PathCover
