import PathCover.Tree.Reader

/-!
# The grammar of paths

One function for each part of a path:

    Root      = Path?
    Path      = ('/' | '//')? Step (('/' | '//') Step)*  |  '/'
    Step      = ('.' | '..' | ('@' | Name '::')? NodeTest) Predicate*
    NodeTest  = KindTest | NameTest
    NameTest  = (Name | '*') (':' (Name | '*'))?
    KindTest  = Name '(' (KindTest | NameTest | ',' | '?' | String)* ')'
    Predicate = '[' ... ']'

Every text has a tree.  What is missing is reported and left out; a token that cannot stand in a
kind test becomes a part of its own, so that the closing parenthesis is still found; and what
follows the path is kept as surplus.

The functions that repeat or nest take a bound on the number of tokens left.
-/

namespace PathCover.Tree

/-- Whether one more group may be opened inside `depth` open ones.  If not, the limit is hit. -/
def mayOpen (depth : Nat) : Reading Bool := fun reader =>
  match reader.limits.depth with
  | .none => (true, reader)
  | some limit => if limit ≤ depth then (false, reader.exceed .depth) else (true, reader)

/-- The end of a group that `opener` began: its closing token, or else a report over the whole
group, so that errors inside it count as its consequences. -/
def close (closer : TokenKind) (kind : DiagnosticKind) (detail : String) (opener : Token) :
    Reading (Option Leaf) := do
  match ← eat closer with
  | some leaf => return some leaf
  | .none =>
      let here ← lookSpan
      reportAt here.start
        ⟨kind, ⟨opener.start, here.stop⟩, kind.message (some detail),
          [⟨"opened here", opener.span⟩]⟩
      return .none

/-- A name test whose first token is next. -/
def nameTest (first : Leaf) : Reading NameTest := do
  advance
  match ← eat .colon with
  | .none => return ⟨first.blanks, first.bare, .none, .none⟩
  | some colon =>
      match ← lookFor TokenKind.startsNameTest with
      | some second =>
          advance
          return ⟨first.blanks, first.bare, some colon, some second⟩
      | .none =>
          reportHere .expectedName (some "after `:`")
          return ⟨first.blanks, first.bare, some colon, .none⟩

/-- A kind test whose keyword and opening parenthesis are next, unless the depth limit is hit.
`arguments` reads what stands between the parentheses. -/
def kindTestWith (arguments : Reading (List Argument)) (depth : Nat) (keyword opener : Leaf) :
    Reading (Option KindTest) := do
  if ← mayOpen depth then
    advance
    let _ ← look
    advance
    let arguments ← arguments
    let closer ←
      close .parenClose .unclosedKindTest "kind test is never closed" opener.token
    return some ⟨keyword.blanks, keyword.bare, opener, arguments, closer⟩
  else return .none

/-- A token that cannot stand among the arguments of a kind test. -/
def stray (leaf : Leaf) : Reading Argument := do
  let _ ← look
  reportHere .unexpectedToken (some ("`" ++ leaf.token.text ++ "`"))
  advance
  return .stray leaf.blanks leaf.token

/-- The arguments of a kind test inside `depth` open groups, up to a token that ends them. -/
def arguments : Nat → Nat → Reading (List Argument)
  | 0, _ => return []
  | fuel + 1, depth => do
      if ← ended then
        return []
      match ← lookFor (!·.endsArguments) with
      | .none => return []
      | some leaf =>
          let _ ← look
          match leaf.kind with
          | .name =>
              match ← secondIf .parenOpen with
              | some opener =>
                  let test ← kindTestWith (arguments fuel (depth + 1)) depth leaf opener
                  let rest ← arguments fuel depth
                  return (test.map KindTest.toArgument).toList ++ rest
              | .none =>
                  let test ← nameTest leaf
                  return .name test :: (← arguments fuel depth)
          | .star =>
              let test ← nameTest leaf
              return .name test :: (← arguments fuel depth)
          | .comma | .question | .stringLiteral =>
              advance
              return .mark leaf :: (← arguments fuel depth)
          | _ =>
              let argument ← stray leaf
              return argument :: (← arguments fuel depth)

/-- A predicate whose opening bracket is next, unless the depth limit is hit.  `items` reads what
stands between the brackets. -/
def predicateWith (items : Reading (List PredicateItem)) (depth : Nat) (opener : Leaf) :
    Reading (Option Predicate) := do
  if ← mayOpen depth then
    let _ ← look
    advance
    let items ← items
    let closer ←
      close .bracketClose .unclosedPredicate "predicate is never closed" opener.token
    return some ⟨opener.blanks, opener.bare, items, closer⟩
  else return .none

/-- The contents of a predicate inside `depth` open groups, up to a closing bracket. -/
def predicateItems : Nat → Nat → Reading (List PredicateItem)
  | 0, _ => return []
  | fuel + 1, depth => do
      if ← ended then
        return []
      match ← look with
      | .none => return []
      | some leaf =>
          match leaf.kind with
          | .bracketClose => return []
          | .bracketOpen =>
              let inner ← predicateWith (predicateItems fuel (depth + 1)) depth leaf
              let rest ← predicateItems fuel depth
              return (inner.map Predicate.toItem).toList ++ rest
          | _ =>
              advance
              return .leaf leaf :: (← predicateItems fuel depth)

/-- The predicates of a step. -/
def predicates : Nat → Reading (List Predicate)
  | 0 => return []
  | fuel + 1 => do
      if ← halted then
        return []
      match ← lookFor (· = .bracketOpen) with
      | .none => return []
      | some opener =>
          let predicate ← predicateWith (predicateItems fuel 1) 0 opener
          let rest ← predicates fuel
          return predicate.toList ++ rest

/-- A node test; `context` says where one is expected. -/
def nodeTest (fuel : Nat) (context : String) : Reading (Option NodeTest) := do
  match ← look with
  | .none =>
      reportHere .expectedNodeTest (some context)
      return .none
  | some leaf =>
      match leaf.kind with
      | .name =>
          match ← secondIf .parenOpen with
          | some opener =>
              let test ← kindTestWith (arguments fuel 1) 0 leaf opener
              return test.map .kind
          | .none => return some (.name (← nameTest leaf))
      | .star => return some (.name (← nameTest leaf))
      | _ =>
          reportHere .expectedNodeTest (some context)
          return .none

/-- A step without its predicates. -/
def stepBody (fuel : Nat) : Reading StepBody := do
  match ← look with
  | .none => return .tested .none (← nodeTest fuel "at start of step")
  | some leaf =>
      match leaf.kind with
      | .dot | .dotDot =>
          advance
          return .abbreviated leaf
      | .at =>
          advance
          return .tested (some (.short leaf)) (← nodeTest fuel "after `@`")
      | .name =>
          match ← secondIf .colonColon with
          | some colons =>
              advance
              advance
              return .tested (some (.named leaf colons)) (← nodeTest fuel "after `::`")
          | .none => return .tested .none (← nodeTest fuel "at start of step")
      | _ => return .tested .none (← nodeTest fuel "at start of step")

/-- A step. -/
def step (fuel : Nat) : Reading Step := do
  let lead ← takeBlanks
  let start ← offset
  let body ← stepBody fuel
  return ⟨lead, start, body, ← predicates fuel⟩

/-- A step, or a report that one is missing. -/
def stepIfAny (fuel : Nat) : Reading (Option Step) := do
  match ← lookFor TokenKind.startsStep with
  | some _ => return some (← step fuel)
  | .none =>
      if ← ended then
        reportHere .expectedStep (some "path ends with a separator")
      else
        reportHere .expectedStep .none
      return .none

/-- The separators and steps after the first step of a path. -/
def laterParts : Nat → Reading (List PathPart)
  | 0 => return []
  | fuel + 1 => do
      if ← halted then
        return []
      match ← lookFor TokenKind.isSeparator with
      | .none => return []
      | some separator =>
          advance
          let step ← stepIfAny fuel
          let rest ← laterParts fuel
          return .separator separator :: (step.map .step).toList ++ rest

/-- The first step of a path and what follows it. -/
def partsFromStep (fuel : Nat) : Reading (List PathPart) := do
  let first ← stepIfAny fuel
  let rest ← laterParts fuel
  return (first.map .step).toList ++ rest

/-- The parts of a path.  A single `/` is a path by itself. -/
def pathParts (fuel : Nat) : Reading (List PathPart) := do
  match ← lookFor TokenKind.isSeparator with
  | .none => partsFromStep fuel
  | some separator =>
      let _ ← look
      advance
      if separator.kind = .slash ∧ (← ended) then
        return [.separator separator]
      return .separator separator :: (← partsFromStep fuel)

/-- A path. -/
def path (fuel : Nat) : Reading Path := do
  let lead ← takeBlanks
  let start ← offset
  return ⟨lead, start, ← pathParts fuel⟩

/-- Everything up to the end of the text, as a part that fits nowhere. -/
def surplus : Reading Surplus := do
  let lead ← takeBlanks
  let start ← offset
  let leaves := (← get).rest
  leaves.forM fun _ => advance
  return ⟨lead, start, leaves⟩

/-- What follows the path, after a report on its first token. -/
def surplusIfAny : Reading (Option Surplus) := do
  if ← ended then
    return .none
  let next ← look
  reportHere .trailingInput
    (some ("`" ++ ((next.map (·.token.text)).getD "") ++ "`"))
  return some (← surplus)

/-- A path if there is anything but blanks, and otherwise a report that one is missing. -/
def pathIfAny (fuel : Nat) : Reading (Option Path) := do
  if ← ended then
    reportHere .expectedPath .none
    return .none
  return some (← path fuel)

/-- The whole text. -/
def root (fuel : Nat) : Reading Root := do
  let path ← pathIfAny fuel
  let surplus ← surplusIfAny
  return ⟨path, surplus, (← get).trail⟩

end PathCover.Tree
