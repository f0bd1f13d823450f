import PathCover.Proofs.Tree.Nodes

/-!
# Nesting of groups in a tree

A predicate or a kind test is a group.  How deep groups nest is read off the uniform view of a tree,
and here related to the typed parts from which the view is made.
-/

namespace PathCover

/-- Whether nodes of a kind are groups. -/
def NodeKind.isGroup : NodeKind → Bool
  | .predicate | .kindTest => true
  | _ => false

namespace Tree

namespace Element

mutual

/-- How many groups of an element lie within each other at most. -/
def nesting : Element → Nat
  | .leaf _ => 0
  | .node kind _ children => nestingOf children + kind.isGroup.toNat

/-- How many groups of several elements lie within each other at most. -/
def nestingOf : List Element → Nat
  | [] => 0
  | element :: rest => max element.nesting (nestingOf rest)

end

@[simp] theorem nestingOf_nil : nestingOf [] = 0 := by
  rw [nestingOf]

@[simp] theorem nestingOf_cons (element : Element) (rest : List Element) :
    nestingOf (element :: rest) = max element.nesting (nestingOf rest) := by
  rw [nestingOf]

@[simp] theorem nesting_leaf (token : Token) : (leaf token).nesting = 0 := by
  rw [nesting]

@[simp] theorem nesting_node (kind : NodeKind) (start : Nat) (children : List Element) :
    (node kind start children).nesting = nestingOf children + kind.isGroup.toNat := by
  rw [nesting]

@[simp] theorem nestingOf_append (front rest : List Element) :
    nestingOf (front ++ rest) = max (nestingOf front) (nestingOf rest) := by
  induction front with
  | nil => simp
  | cons element front ih => simp [ih, Nat.max_assoc]

@[simp] theorem nestingOf_blankElements (blanks : List Token) :
    nestingOf (blankElements blanks) = 0 := by
  induction blanks with
  | nil => rfl
  | cons blank blanks ih =>
      rw [blankElements, List.map_cons, nestingOf_cons, nesting_leaf, Nat.zero_max]
      exact ih

end Element

open Element

@[simp] theorem Leaf.nestingOf_elements (leaf : Leaf) : nestingOf leaf.elements = 0 := by
  simp [Leaf.elements]

@[simp] theorem nestingOf_optionLeaf (leaf : Option Leaf) :
    nestingOf (optionElements Leaf.elements leaf) = 0 := by
  cases leaf <;> simp [optionElements]

/-! ## Kind tests -/

@[simp] theorem NameTest.nestingOf_elements (test : NameTest) : nestingOf test.elements = 0 := by
  simp [NameTest.elements, NameTest.element, NodeKind.isGroup]

@[simp] theorem KindTest.nestingOf_elements (test : KindTest) :
    nestingOf test.elements = nestingOf (Argument.elementsOf test.arguments) + 1 := by
  simp [KindTest.elements, KindTest.element, NodeKind.isGroup]

@[simp] theorem Argument.nestingOf_name (test : NameTest) :
    nestingOf (Argument.name test).elements = 0 := by
  simp [Argument.elements]

@[simp] theorem Argument.nestingOf_mark (part : Leaf) :
    nestingOf (Argument.mark part).elements = 0 := by
  simp [Argument.elements]

@[simp] theorem Argument.nestingOf_stray (lead : List Token) (token : Token) :
    nestingOf (Argument.stray lead token).elements = 0 := by
  simp [Argument.elements, NodeKind.isGroup]

@[simp] theorem Argument.nestingOf_nil : nestingOf (Argument.elementsOf []) = 0 := by
  simp [Argument.elementsOf]

@[simp] theorem Argument.nestingOf_cons (argument : Argument) (rest : List Argument) :
    nestingOf (Argument.elementsOf (argument :: rest)) =
      max (nestingOf argument.elements) (nestingOf (Argument.elementsOf rest)) := by
  simp [Argument.elementsOf]

/-- A kind test nests as an argument as it does by itself. -/
@[simp] theorem Argument.nestingOf_toArgument (test : Option KindTest) (rest : List Argument) :
    nestingOf (Argument.elementsOf ((test.map KindTest.toArgument).toList ++ rest)) =
      max (nestingOf (optionElements KindTest.elements test))
        (nestingOf (Argument.elementsOf rest)) := by
  rw [Argument.elementsOf_toArgument, nestingOf_append]

/-! ## Predicates -/

@[simp] theorem Predicate.nestingOf_elements (predicate : Predicate) :
    nestingOf predicate.elements =
      nestingOf (PredicateItem.elementsOf predicate.items) + 1 := by
  simp [Predicate.elements, Predicate.element, NodeKind.isGroup]

@[simp] theorem PredicateItem.nestingOf_nil : nestingOf (PredicateItem.elementsOf []) = 0 := by
  simp [PredicateItem.elementsOf]

@[simp] theorem PredicateItem.nestingOf_leaf (part : Leaf) (rest : List PredicateItem) :
    nestingOf (PredicateItem.elementsOf (.leaf part :: rest)) =
      nestingOf (PredicateItem.elementsOf rest) := by
  simp [PredicateItem.elementsOf, PredicateItem.elements]

/-- A predicate nests as a part of another as it does by itself. -/
@[simp] theorem PredicateItem.nestingOf_toItem (inner : Option Predicate)
    (rest : List PredicateItem) :
    nestingOf (PredicateItem.elementsOf ((inner.map Predicate.toItem).toList ++ rest)) =
      max (nestingOf (optionElements Predicate.elements inner))
        (nestingOf (PredicateItem.elementsOf rest)) := by
  rw [PredicateItem.elementsOf_toItem, nestingOf_append]

/-! ## The whole tree -/

/-- What follows the path has no groups in it. -/
@[simp] theorem Surplus.nestingOf_elements (surplus : Surplus) :
    nestingOf surplus.elements = 0 := by
  have flat : ∀ leaves : List Leaf, nestingOf (leaves.flatMap Leaf.elements) = 0 := by
    intro leaves
    induction leaves with
    | nil => rfl
    | cons leaf leaves ih => simp [ih]
  simp [Surplus.elements, NodeKind.isGroup, flat]

/-- All groups of a text are in its path. -/
theorem Root.nesting_element (path : Option Path) (surplus : Option Surplus)
    (trail : List Token) :
    (Root.mk path surplus trail).element.nesting =
      nestingOf (optionElements Path.elements path) := by
  cases surplus <;> simp [Root.element, optionElements, NodeKind.isGroup]

end Tree

end PathCover
