import PathCover.Tree.Basic

/-!
# Syntax trees as elements

The uniform view of a syntax tree: every part of it is a token or a node with a kind and children.
The text of a node is the text of its leaves.
-/

namespace PathCover.Tree

/-- An element of a syntax tree.  A node knows the offset at which it starts, which its children do
not show when there are none. -/
inductive Element where
  | leaf (token : Token)
  | node (kind : NodeKind) (start : Nat) (children : List Element)
  deriving Inhabited

namespace Element

mutual

/-- The tokens of an element from left to right. -/
def leaves : Element → List Token
  | .leaf token => [token]
  | .node _ _ children => leavesOf children

/-- The tokens of several elements from left to right. -/
def leavesOf : List Element → List Token
  | [] => []
  | element :: rest => element.leaves ++ leavesOf rest

end

/-- The text of an element. -/
def text (element : Element) : String := String.join (element.leaves.map Token.text)

/-- The number of bytes that an element covers. -/
def width (element : Element) : Nat :=
  element.leaves.foldr (fun token width => token.text.utf8ByteSize + width) 0

/-- The stretch of the text that an element covers. -/
def span : Element → Text.Span
  | .leaf token => token.span
  | .node kind start children => ⟨start, start + (Element.node kind start children).width⟩

end Element

/-- Blanks as elements. -/
def blankElements (blanks : List Token) : List Element := blanks.map .leaf

/-- A token with the blanks in front of it as elements. -/
def Leaf.elements (leaf : Leaf) : List Element := blankElements leaf.blanks ++ [.leaf leaf.token]

/-- The elements of a part that may be missing. -/
def optionElements {α : Type} (elements : α → List Element) : Option α → List Element
  | none => []
  | some part => elements part

def NameTest.element (test : NameTest) : Element :=
  .node .nameTest test.first.token.start
    (test.first.elements ++ optionElements Leaf.elements test.colon ++
      optionElements Leaf.elements test.second)

def NameTest.elements (test : NameTest) : List Element :=
  blankElements test.lead ++ [test.element]

mutual

/-- An argument of a kind test with the blanks in front of it. -/
def Argument.elements : Argument → List Element
  | .name test => test.elements
  | .mark leaf => leaf.elements
  | .stray lead token => blankElements lead ++ [.node .error token.start [.leaf token]]
  | .nested lead keyword opener arguments closer =>
      blankElements lead ++
        [.node .kindTest keyword.token.start
          (keyword.elements ++ opener.elements ++ Argument.elementsOf arguments ++
            optionElements Leaf.elements closer)]

/-- The arguments of a kind test with the blanks in front of each. -/
def Argument.elementsOf : List Argument → List Element
  | [] => []
  | argument :: rest => argument.elements ++ elementsOf rest

end

def KindTest.element (test : KindTest) : Element :=
  .node .kindTest test.keyword.token.start
    (test.keyword.elements ++ test.opener.elements ++ Argument.elementsOf test.arguments ++
      optionElements Leaf.elements test.closer)

def KindTest.elements (test : KindTest) : List Element :=
  blankElements test.lead ++ [test.element]

mutual

/-- A part of a predicate with the blanks in front of it. -/
def PredicateItem.elements : PredicateItem → List Element
  | .leaf part => part.elements
  | .nested lead opener items closer =>
      blankElements lead ++
        [.node .predicate opener.token.start
          (opener.elements ++ PredicateItem.elementsOf items ++
            optionElements Leaf.elements closer)]

/-- The contents of a predicate. -/
def PredicateItem.elementsOf : List PredicateItem → List Element
  | [] => []
  | item :: rest => item.elements ++ elementsOf rest

end

def Predicate.element (predicate : Predicate) : Element :=
  .node .predicate predicate.opener.token.start
    (predicate.opener.elements ++ PredicateItem.elementsOf predicate.items ++
      optionElements Leaf.elements predicate.closer)

def Predicate.elements (predicate : Predicate) : List Element :=
  blankElements predicate.lead ++ [predicate.element]

def NodeTest.elements : NodeTest → List Element
  | .name test => test.elements
  | .kind test => test.elements

def AxisMark.elements : AxisMark → List Element
  | .short leaf => leaf.elements
  | .named name colons =>
      [.node .axisSpec name.token.start (name.elements ++ colons.elements)]

def StepBody.elements : StepBody → List Element
  | .abbreviated leaf => leaf.elements
  | .tested axis test =>
      optionElements AxisMark.elements axis ++ optionElements NodeTest.elements test

def Step.element (step : Step) : Element :=
  .node .step step.start (step.body.elements ++ step.predicates.flatMap Predicate.elements)

def Step.elements (step : Step) : List Element := blankElements step.lead ++ [step.element]

def PathPart.elements : PathPart → List Element
  | .separator part => part.elements
  | .step part => part.elements

def Path.elements (path : Path) : List Element :=
  blankElements path.lead ++ [.node .path path.start (path.parts.flatMap PathPart.elements)]

def Surplus.elements (surplus : Surplus) : List Element :=
  blankElements surplus.lead ++
    [.node .error surplus.start (surplus.leaves.flatMap Leaf.elements)]

/-- The whole tree as one element. -/
def Root.element (root : Root) : Element :=
  .node .root 0
    (optionElements Path.elements root.path ++ optionElements Surplus.elements root.surplus ++
      blankElements root.trail)

end PathCover.Tree
