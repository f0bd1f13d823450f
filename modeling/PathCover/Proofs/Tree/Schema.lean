import Mathlib.Data.List.Chain
import PathCover.Proofs.Tree.Neat

/-!
# The schema of trees

What may stand directly in a node depends on the kind of the node alone.  The schema says which rows
of tokens and nodes are allowed, blanks aside, with a place for everything that malformed texts
hold.
-/

namespace PathCover

/-! ## Rows -/

namespace ElementKind

/-- What may stand in a path: separators and steps. -/
def isPart : ElementKind → Bool
  | .token kind => kind.isSeparator
  | .node kind => kind = .step

/-- What may stand between the parentheses of a kind test. -/
def isArgument : ElementKind → Bool
  | .token kind => kind = .comma ∨ kind = .question ∨ kind = .stringLiteral
  | .node kind => kind = .kindTest ∨ kind = .nameTest ∨ kind = .error

/-- What may stand between the brackets of a predicate: any tokens but brackets, and predicates. -/
def isItem : ElementKind → Bool
  | .token kind => kind ≠ .bracketOpen ∧ kind ≠ .bracketClose
  | .node kind => kind = .predicate

end ElementKind

/-- Separators and steps, with a separator between any two steps. -/
structure PathRow (row : List ElementKind) : Prop where
  parts : ∀ kind ∈ row, kind.isPart = true
  apart : row.IsChain fun first second => first ≠ .node .step ∨ second ≠ .node .step

/-- What may stand in a step in front of its predicates. -/
inductive StepRow : List ElementKind → Prop where
  /-- `.` or `..` -/
  | abbreviated {sign : TokenKind} (isDots : sign = .dot ∨ sign = .dotDot) :
      StepRow [.token sign]
  | tested {mark test : Option ElementKind}
      (isMark : ∀ kind ∈ mark, kind = .token .at ∨ kind = .node .axisSpec)
      (isTest : ∀ kind ∈ test, kind = .node .nameTest ∨ kind = .node .kindTest) :
      StepRow (mark.toList ++ test.toList)

/-- The rows that a node of a kind may have, blanks aside.  The closing token of a group may be
missing. -/
inductive NodeKind.Allows : NodeKind → List ElementKind → Prop where
  | blank : Allows .root []
  | root {surplus : Option ElementKind} (isError : ∀ kind ∈ surplus, kind = .node .error) :
      Allows .root (.node .path :: surplus.toList)
  | path {row : List ElementKind} (parts : PathRow row) : Allows .path row
  | step {body predicates : List ElementKind} (isBody : StepRow body)
      (arePredicates : ∀ kind ∈ predicates, kind = .node .predicate) :
      Allows .step (body ++ predicates)
  | axisSpec : Allows .axisSpec [.token .name, .token .colonColon]
  | name {first : TokenKind} (starts : first.startsNameTest = true) :
      Allows .nameTest [.token first]
  | qualified {first : TokenKind} {second : Option TokenKind}
      (starts : first.startsNameTest = true)
      (goesOn : ∀ kind ∈ second, kind.startsNameTest = true) :
      Allows .nameTest (.token first :: .token .colon :: (second.map .token).toList)
  | kindTest {arguments : List ElementKind} {closer : Option ElementKind}
      (areArguments : ∀ kind ∈ arguments, kind.isArgument = true)
      (closes : ∀ kind ∈ closer, kind = .token .parenClose) :
      Allows .kindTest (.token .name :: .token .parenOpen :: (arguments ++ closer.toList))
  | predicate {items : List ElementKind} {closer : Option ElementKind}
      (areItems : ∀ kind ∈ items, kind.isItem = true)
      (closes : ∀ kind ∈ closer, kind = .token .bracketClose) :
      Allows .predicate (.token .bracketOpen :: (items ++ closer.toList))
  | error {row : List ElementKind} (filled : row ≠ [])
      (tokens : ∀ kind ∈ row, ∃ token, kind = .token token) : Allows .error row

/-- The token that closes a group. -/
def NodeKind.closer? : NodeKind → Option TokenKind
  | .kindTest => some .parenClose
  | .predicate => some .bracketClose
  | _ => none

namespace PathRow

variable {row : List ElementKind}

theorem nil : PathRow [] := ⟨by simp, .nil⟩

theorem tail {kind : ElementKind} (parts : PathRow (kind :: row)) : PathRow row :=
  ⟨fun other member => parts.parts other (List.mem_cons_of_mem _ member), parts.apart.tail⟩

theorem step : PathRow [.node .step] := ⟨by simp [ElementKind.isPart], .singleton _⟩

/-- A separator may stand in front of everything. -/
theorem separator {kind : TokenKind} (separates : kind.isSeparator = true) (parts : PathRow row) :
    PathRow (.token kind :: row) := by
  constructor
  · exact List.forall_mem_cons.mpr ⟨separates, parts.parts⟩
  · exact List.isChain_cons.mpr ⟨fun _ _ => .inl (by simp), parts.apart⟩

/-- A step may stand in front of a separator. -/
theorem step_separator {kind : TokenKind} (parts : PathRow (.token kind :: row)) :
    PathRow (.node .step :: .token kind :: row) := by
  constructor
  · exact List.forall_mem_cons.mpr ⟨rfl, parts.parts⟩
  · exact List.isChain_cons_cons.mpr ⟨.inr (by simp), parts.apart⟩

/-- Two steps with nothing between them are no path. -/
example : ¬ PathRow [.node .step, .node .step] := fun row => absurd row.apart (by decide)

/-- What may follow a step may also stand without it. -/
theorem ifStep {kind : Option ElementKind} (isStep : ∀ found ∈ kind, found = .node .step)
    (parts : PathRow (.node .step :: row)) : PathRow (kind.toList ++ row) := by
  cases kind with
  | none => exact parts.tail
  | some found =>
      rw [isStep found rfl]
      exact parts

end PathRow

namespace Tree

open Element

/-! ## Elements -/

namespace Element

def kind : Element → ElementKind
  | .leaf token => .token token.kind
  | .node kind _ _ => .node kind

def isBlank : Element → Bool
  | .leaf token => token.kind.isTrivia
  | .node .. => false

/-- The kinds of several elements, blanks aside. -/
def rowOf (elements : List Element) : List ElementKind :=
  (elements.filter (!·.isBlank)).map kind

/-- The kinds of what stands directly in an element, blanks aside. -/
def row (element : Element) : List ElementKind := rowOf element.children

/-- Among these elements a node of tokens that fit nowhere holds exactly one token. -/
def StraysAlone (elements : List Element) : Prop :=
  ∀ element ∈ elements, element.nodeKind? = some .error → ∃ token, element.row = [.token token]

/-- A node whose children are allowed by the schema.  Where a token fits nowhere in a kind test, it
stands in a node of its own. -/
structure Fits (node : Element) : Prop where
  allowed : ∀ kind ∈ node.nodeKind?, kind.Allows node.row
  strays : node.nodeKind? = some .kindTest → StraysAlone node.children

/-- A node that is no group, or is a group that ends with its closing token. -/
def Closed (node : Element) : Prop :=
  ∀ kind ∈ node.nodeKind?, ∀ closer ∈ kind.closer?, node.row.getLast? = some (.token closer)

instance (node : Element) : Decidable node.Closed :=
  inferInstanceAs (Decidable (∀ kind ∈ node.nodeKind?, ∀ closer ∈ kind.closer?,
    node.row.getLast? = some (.token closer)))

variable {elements : List Element}

@[simp] theorem rowOf_nil : rowOf [] = [] := rfl

@[simp] theorem rowOf_append (front rest : List Element) :
    rowOf (front ++ rest) = rowOf front ++ rowOf rest := by
  simp [rowOf]

@[simp] theorem rowOf_node (kind : NodeKind) (start : Nat) (children : List Element) :
    rowOf [node kind start children] = [.node kind] := rfl

theorem rowOf_blankElements {blanks : List Token} (blank : AreBlank blanks) :
    rowOf (blankElements blanks) = [] := by
  simpa [rowOf, blankElements, isBlank, AreBlank] using blank

/-- A node shows in the row. -/
theorem node_mem_rowOf {element : Element} {kind : NodeKind} (member : element ∈ elements)
    (isNode : element.nodeKind? = some kind) : .node kind ∈ rowOf elements := by
  cases element with
  | leaf token => cases isNode
  | node other start children =>
      obtain rfl : other = kind := Option.some.inj isNode
      exact List.mem_map.mpr ⟨_, List.mem_filter.mpr ⟨member, rfl⟩, rfl⟩

theorem straysAlone_of_row (noError : .node .error ∉ rowOf elements) : StraysAlone elements :=
  fun _ member isError => absurd (node_mem_rowOf member isError) noError

theorem straysAlone_tokens (noNodes : nodesOf elements = []) : StraysAlone elements := by
  induction elements with
  | nil => simp [StraysAlone]
  | cons element rest ih =>
      rw [nodesOf_cons, List.append_eq_nil_iff] at noNodes
      refine List.forall_mem_cons.mpr ⟨?_, ih noNodes.2⟩
      intro isError
      cases element with
      | leaf token => cases isError
      | node kind start children => simp at noNodes

theorem straysAlone_append {front rest : List Element} (first : StraysAlone front)
    (second : StraysAlone rest) : StraysAlone (front ++ rest) :=
  List.forall_mem_append.mpr ⟨first, second⟩

end Element

/-- A token in front of which there are only blanks, and which is no blank itself. -/
structure Leaf.Seen (leaf : Leaf) : Prop where
  blanks : AreBlank leaf.blanks
  visible : leaf.kind ≠ .whitespace

theorem Leaf.Seen.bare {leaf : Leaf} (seen : leaf.Seen) : leaf.bare.Seen :=
  ⟨by simp [Leaf.bare, AreBlank], seen.visible⟩

theorem Leaf.Seen.rowOf_elements {leaf : Leaf} (seen : leaf.Seen) :
    rowOf leaf.elements = [.token leaf.kind] := by
  have visible := TokenKind.isTrivia_eq_false_iff.mpr seen.visible
  rw [Leaf.elements, rowOf_append, rowOf_blankElements seen.blanks, List.nil_append, rowOf,
    List.filter_cons_of_pos (by simpa [isBlank, Leaf.kind] using visible)]
  rfl

theorem rowOf_leaves {leaves : List Leaf} (seen : ∀ leaf ∈ leaves, leaf.Seen) :
    rowOf (leaves.flatMap Leaf.elements) = leaves.map (.token ·.kind) := by
  induction leaves with
  | nil => rfl
  | cons leaf leaves ih =>
      rw [List.forall_mem_cons] at seen
      rw [List.flatMap_cons, rowOf_append, seen.1.rowOf_elements, ih seen.2]
      rfl

/-- What such a reader has in view is seen. -/
theorem Reader.Spaced.seen {reader : Reader} {leaf : Leaf} (spaced : reader.Spaced)
    (next : reader.rest.head? = some leaf) : leaf.Seen :=
  ⟨spaced.head next, spaced.visible leaf (List.mem_of_mem_head? next)⟩

end Tree

end PathCover
