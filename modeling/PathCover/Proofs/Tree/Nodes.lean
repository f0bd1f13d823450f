import PathCover.Tree.Meaning

/-!
# Leaves and nodes of a tree

The tokens and the nodes of an element as lists, and what they are for the typed parts from which
elements are made.
-/

namespace PathCover.Tree

namespace Element

/-- What stands directly in an element. -/
def children : Element → List Element
  | .leaf _ => []
  | .node _ _ children => children

/-- The kind of a node. -/
def nodeKind? : Element → Option NodeKind
  | .leaf _ => none
  | .node kind _ _ => some kind

mutual

/-- The nodes of an element, itself included, each in front of the nodes in it. -/
def nodes : Element → List Element
  | .leaf _ => []
  | .node kind start children => .node kind start children :: nodesOf children

/-- The nodes of several elements from left to right. -/
def nodesOf : List Element → List Element
  | [] => []
  | element :: rest => element.nodes ++ nodesOf rest

end

/-- The nodes strictly inside an element. -/
def inner (element : Element) : List Element := nodesOf element.children

@[simp] theorem leaves_leaf (token : Token) : (leaf token).leaves = [token] := by
  rw [leaves]

@[simp] theorem leaves_node (kind : NodeKind) (start : Nat) (children : List Element) :
    (node kind start children).leaves = leavesOf children := by
  rw [leaves]

@[simp] theorem leavesOf_nil : leavesOf [] = [] := by
  rw [leavesOf]

@[simp] theorem leavesOf_cons (element : Element) (rest : List Element) :
    leavesOf (element :: rest) = element.leaves ++ leavesOf rest := by
  rw [leavesOf]

@[simp] theorem leavesOf_append (front rest : List Element) :
    leavesOf (front ++ rest) = leavesOf front ++ leavesOf rest := by
  induction front with
  | nil => simp
  | cons element front ih => simp [ih]

@[simp] theorem leavesOf_blankElements (blanks : List Token) :
    leavesOf (blankElements blanks) = blanks := by
  induction blanks with
  | nil => rfl
  | cons blank blanks ih =>
      rw [blankElements, List.map_cons, leavesOf_cons, leaves_leaf, ← blankElements, ih]
      rfl

@[simp] theorem nodes_leaf (token : Token) : (leaf token).nodes = [] := by
  rw [nodes]

@[simp] theorem nodes_node (kind : NodeKind) (start : Nat) (children : List Element) :
    (node kind start children).nodes = node kind start children :: nodesOf children := by
  rw [nodes]

@[simp] theorem nodesOf_nil : nodesOf [] = [] := by
  rw [nodesOf]

@[simp] theorem nodesOf_cons (element : Element) (rest : List Element) :
    nodesOf (element :: rest) = element.nodes ++ nodesOf rest := by
  rw [nodesOf]

@[simp] theorem nodesOf_append (front rest : List Element) :
    nodesOf (front ++ rest) = nodesOf front ++ nodesOf rest := by
  induction front with
  | nil => simp
  | cons element front ih => simp [ih]

@[simp] theorem nodesOf_blankElements (blanks : List Token) :
    nodesOf (blankElements blanks) = [] := by
  induction blanks with
  | nil => rfl
  | cons blank blanks ih =>
      rw [blankElements, List.map_cons, nodesOf_cons, nodes_leaf, ← blankElements, ih]
      rfl

end Element

open Element

/-- A token with the blanks in front of it. -/
def Leaf.tokens (leaf : Leaf) : List Token := leaf.blanks ++ [leaf.token]

@[simp] theorem Leaf.leavesOf_elements (leaf : Leaf) :
    leavesOf leaf.elements = leaf.tokens := by
  simp [Leaf.elements, Leaf.tokens]

@[simp] theorem Leaf.nodesOf_elements (leaf : Leaf) : nodesOf leaf.elements = [] := by
  simp [Leaf.elements]

@[simp] theorem nodesOf_optionLeaf (leaf : Option Leaf) :
    nodesOf (optionElements Leaf.elements leaf) = [] := by
  cases leaf <;> simp [optionElements]

@[simp] theorem leavesOf_flatMap_leaves (leaves : List Leaf) :
    leavesOf (leaves.flatMap Leaf.elements) = leaves.flatMap Leaf.tokens := by
  induction leaves with
  | nil => simp
  | cons leaf leaves ih => simp [ih]

@[simp] theorem nodesOf_flatMap_leaves (leaves : List Leaf) :
    nodesOf (leaves.flatMap Leaf.elements) = [] := by
  induction leaves with
  | nil => simp
  | cons leaf leaves ih => simp [ih]

/-! ## Shapes of typed parts -/

theorem NameTest.elements_mk (first : Leaf) (colon second : Option Leaf) :
    (NameTest.mk first.blanks first.bare colon second).elements =
      blankElements first.blanks ++ [.node .nameTest first.token.start (first.bare.elements ++
        (optionElements Leaf.elements colon ++ optionElements Leaf.elements second))] := by
  rw [NameTest.elements, NameTest.element, List.append_assoc]
  rfl

theorem KindTest.elements_mk (keyword opener : Leaf) (arguments : List Argument)
    (closer : Option Leaf) :
    (KindTest.mk keyword.blanks keyword.bare opener arguments closer).elements =
      blankElements keyword.blanks ++ [.node .kindTest keyword.token.start
        (keyword.bare.elements ++ (opener.elements ++ Argument.elementsOf arguments ++
          optionElements Leaf.elements closer))] := by
  rw [KindTest.elements, KindTest.element, List.append_assoc, List.append_assoc,
    ← List.append_assoc opener.elements]
  rfl

/-- A kind test in front of other arguments. -/
theorem Argument.elementsOf_toArgument (test : Option KindTest) (rest : List Argument) :
    Argument.elementsOf ((test.map KindTest.toArgument).toList ++ rest) =
      optionElements KindTest.elements test ++ Argument.elementsOf rest := by
  cases test with
  | none => rfl
  | some test =>
      rw [Option.map_some, Option.toList_some, List.singleton_append, Argument.elementsOf,
        KindTest.toArgument, Argument.elements]
      rfl

theorem Predicate.elements_mk (opener : Leaf) (items : List PredicateItem)
    (closer : Option Leaf) :
    (Predicate.mk opener.blanks opener.bare items closer).elements =
      blankElements opener.blanks ++ [.node .predicate opener.token.start
        (opener.bare.elements ++ (PredicateItem.elementsOf items ++
          optionElements Leaf.elements closer))] := by
  rw [Predicate.elements, Predicate.element, List.append_assoc]
  rfl

/-- A predicate in front of other contents of a predicate. -/
theorem PredicateItem.elementsOf_toItem (inner : Option Predicate) (rest : List PredicateItem) :
    PredicateItem.elementsOf ((inner.map Predicate.toItem).toList ++ rest) =
      optionElements Predicate.elements inner ++ PredicateItem.elementsOf rest := by
  cases inner with
  | none => rfl
  | some inner =>
      rw [Option.map_some, Option.toList_some, List.singleton_append, PredicateItem.elementsOf,
        Predicate.toItem, PredicateItem.elements]
      rfl

theorem optionElements_map {α β : Type} (elements : β → List Element) (change : α → β)
    (part : Option α) :
    optionElements elements (part.map change) =
      optionElements (fun one => elements (change one)) part := by
  cases part <;> rfl

/-- Parts that may be missing in front of others. -/
theorem flatMap_toList_append {α : Type} (elements : α → List Element) (part : Option α)
    (rest : List α) :
    (part.toList ++ rest).flatMap elements =
      optionElements elements part ++ rest.flatMap elements := by
  cases part <;> rfl

/-! ## Steps of a tree -/

namespace Element

/-- Whether an element is the node of a step. -/
def isStep (element : Element) : Bool := element.nodeKind? = some .step

/-- The nodes of steps among several elements and in them, from left to right. -/
def stepsOf (elements : List Element) : List Element := (nodesOf elements).filter isStep

@[simp] theorem stepsOf_append (front rest : List Element) :
    stepsOf (front ++ rest) = stepsOf front ++ stepsOf rest := by
  simp [stepsOf]

@[simp] theorem stepsOf_blankElements (blanks : List Token) :
    stepsOf (blankElements blanks) = [] := by
  simp [stepsOf]

theorem stepsOf_node {kind : NodeKind} (noStep : kind ≠ .step) (start : Nat)
    (children : List Element) : stepsOf [node kind start children] = stepsOf children := by
  simp [stepsOf, isStep, nodeKind?, noStep]

end Element

@[simp] theorem Leaf.stepsOf_elements (leaf : Leaf) : stepsOf leaf.elements = [] := by
  simp [stepsOf]

@[simp] theorem stepsOf_optionLeaf (leaf : Option Leaf) :
    stepsOf (optionElements Leaf.elements leaf) = [] := by
  simp [stepsOf]

@[simp] theorem NameTest.stepsOf_elements (test : NameTest) : stepsOf test.elements = [] := by
  simp [NameTest.elements, NameTest.element, stepsOf_node]

mutual

theorem Argument.stepsOf_elements (argument : Argument) : stepsOf argument.elements = [] := by
  cases argument with
  | name test => simp [Argument.elements]
  | mark leaf => simp [Argument.elements]
  | stray lead token => simp [Argument.elements, stepsOf, isStep, nodeKind?]
  | nested lead keyword opener arguments closer =>
      simp [Argument.elements, stepsOf_node, Argument.stepsOf_elementsOf arguments]

theorem Argument.stepsOf_elementsOf (arguments : List Argument) :
    stepsOf (Argument.elementsOf arguments) = [] := by
  cases arguments with
  | nil => rfl
  | cons argument rest =>
      simp [Argument.elementsOf, Argument.stepsOf_elements argument,
        Argument.stepsOf_elementsOf rest]

end

theorem KindTest.stepsOf_elements (test : KindTest) : stepsOf test.elements = [] := by
  simp [KindTest.elements, KindTest.element, stepsOf_node, Argument.stepsOf_elementsOf]

mutual

theorem PredicateItem.stepsOf_elements (item : PredicateItem) : stepsOf item.elements = [] := by
  cases item with
  | leaf part => simp [PredicateItem.elements]
  | nested lead opener items closer =>
      simp [PredicateItem.elements, stepsOf_node, PredicateItem.stepsOf_elementsOf items]

theorem PredicateItem.stepsOf_elementsOf (items : List PredicateItem) :
    stepsOf (PredicateItem.elementsOf items) = [] := by
  cases items with
  | nil => rfl
  | cons item rest =>
      simp [PredicateItem.elementsOf, PredicateItem.stepsOf_elements item,
        PredicateItem.stepsOf_elementsOf rest]

end

theorem Predicate.stepsOf_elements (predicate : Predicate) :
    stepsOf predicate.elements = [] := by
  simp [Predicate.elements, Predicate.element, stepsOf_node, PredicateItem.stepsOf_elementsOf]

theorem AxisMark.stepsOf_elements (axis : AxisMark) : stepsOf axis.elements = [] := by
  cases axis <;> simp [AxisMark.elements, stepsOf_node]

theorem NodeTest.stepsOf_elements (test : NodeTest) : stepsOf test.elements = [] := by
  cases test <;> simp [NodeTest.elements, KindTest.stepsOf_elements]

theorem StepBody.stepsOf_elements (body : StepBody) : stepsOf body.elements = [] := by
  cases body with
  | abbreviated sign => simp [StepBody.elements]
  | tested axis test =>
      rw [StepBody.elements, stepsOf_append, List.append_eq_nil_iff]
      constructor
      · cases axis with
        | none => rfl
        | some axis => exact axis.stepsOf_elements
      · cases test with
        | none => rfl
        | some test => exact test.stepsOf_elements

/-- No step stands inside another one. -/
theorem Step.stepsOf_elements (step : Step) : stepsOf step.elements = [step.element] := by
  have nothing : stepsOf (step.predicates.flatMap Predicate.elements) = [] := by
    induction step.predicates with
    | nil => rfl
    | cons predicate rest ih => simp [Predicate.stepsOf_elements, ih]
  have inside :
      stepsOf (step.body.elements ++ step.predicates.flatMap Predicate.elements) = [] := by
    simp [StepBody.stepsOf_elements, nothing]
  rw [Step.elements, stepsOf_append, stepsOf_blankElements]
  simpa [stepsOf, isStep, nodeKind?, Step.element] using inside

/-- The step that a part of a path is, if it is one. -/
def PathPart.step? : PathPart → Option Step
  | .separator _ => none
  | .step part => some part

theorem stepsOf_parts (parts : List PathPart) :
    stepsOf (parts.flatMap PathPart.elements) =
      (parts.filterMap PathPart.step?).map Step.element := by
  induction parts with
  | nil => rfl
  | cons part parts ih =>
      rw [List.flatMap_cons, stepsOf_append, ih]
      cases part with
      | separator leaf => simp [PathPart.elements, List.filterMap_cons, PathPart.step?]
      | step step =>
          simp [PathPart.elements, PathPart.step?, Step.stepsOf_elements]

theorem Path.stepsOf_elements (path : Path) :
    stepsOf path.elements = (path.parts.filterMap PathPart.step?).map Step.element := by
  simp [Path.elements, stepsOf_node, stepsOf_parts]

/-- The steps of a tree are the steps of its path. -/
theorem Root.stepsOf_element (root : Root) :
    stepsOf [root.element] = (root.parts.filterMap PathPart.step?).map Step.element := by
  obtain ⟨path, surplus, trail⟩ := root
  have nothing : stepsOf (optionElements Surplus.elements surplus) = [] := by
    cases surplus with
    | none => rfl
    | some surplus => simp [optionElements, Surplus.elements, stepsOf, isStep, nodeKind?]
  rw [Root.element, stepsOf_node (by decide), stepsOf_append, stepsOf_append, nothing,
    stepsOf_blankElements, List.append_nil, List.append_nil]
  cases path with
  | none => rfl
  | some path => exact path.stepsOf_elements

end PathCover.Tree
