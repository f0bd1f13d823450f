import PathCover.Proofs.Path.RoundTrip

/-!
# What the written form of a path keeps

A reader of written paths, which takes a text apart from left to right and never fails.  Of the
written form of a path with well-spelled names it reads what the path shows: the path itself, but
for a type behind no name and for an empty target, neither of which is written.
-/

namespace PathCover

open Token (EndsName)

/-! ## What is shown -/

/-- A kind test without what its written form leaves out: a type behind no name, and an empty
target. -/
def KindTest.shown : KindTest → KindTest
  | .element name typeName => .element name (name.bind fun _ => typeName)
  | .attribute name typeName => .attribute name (name.bind fun _ => typeName)
  | .processingInstruction target => .processingInstruction (target.filter (· ≠ ""))
  | .documentOf inner => .documentOf inner.shown
  | kind => kind

def NodeTest.shown : NodeTest → NodeTest
  | .name accepted => .name accepted
  | .kind accepted => .kind accepted.shown

def AxisStep.shown (step : AxisStep) : AxisStep := ⟨step.axis, step.test.shown⟩

def Step.shown : Step → Step
  | .separator depth => .separator depth
  | .axis step => .axis step.shown

/-- A path without what its written form leaves out. -/
def Path.shown (path : Path) : Path := path.map Step.shown

/-! ## The reader -/

namespace Written

/-- The name in front of a text, if any. -/
def word (text : List Char) : List Char := text.takeWhile Token.isNamePart

/-- What is behind the name in front of a text. -/
def behindWord (text : List Char) : List Char := text.dropWhile Token.isNamePart

def readPart (text : List Char) : NamePart × List Char :=
  if text.head? = some '*' then (.any, text.tail)
  else (.named (String.ofList (word text)), behindWord text)

def readName (text : List Char) : QName × List Char :=
  let first := readPart text
  if first.2.head? = some ':' then
    let second := readPart first.2.tail
    (⟨some first.1, second.1⟩, second.2)
  else (⟨none, first.1⟩, first.2)

/-- Reads a name, a type and the closing parenthesis. -/
def readTyped (text : List Char) : (Option QName × Option QName) × List Char :=
  if text.head? = some ')' then ((none, none), text.tail)
  else
    let name := readName text
    if name.2.head? = some ',' then
      let typeName := readName (name.2.drop 2)
      ((some name.1, some typeName.1), typeName.2.tail)
    else ((some name.1, none), name.2.tail)

/-- Reads a target and the closing parenthesis. -/
def readTarget (text : List Char) : Option String × List Char :=
  if text.head? = some ')' then (none, text.tail)
  else (some (String.ofList (text.takeWhile (· ≠ ')'))), (text.dropWhile (· ≠ ')')).tail)

/-- Reads the arguments of a kind test and the closing parenthesis; `readInner` reads a kind test
among them. -/
def readArguments (readInner : List Char → KindTest × List Char) (keyword : List Char)
    (text : List Char) : KindTest × List Char :=
  match String.ofList keyword with
  | "node" => (.anyKind, text.tail)
  | "text" => (.text, text.tail)
  | "comment" => (.comment, text.tail)
  | "element" =>
      let typed := readTyped text
      (.element typed.1.1 typed.1.2, typed.2)
  | "attribute" =>
      let typed := readTyped text
      (.attribute typed.1.1 typed.1.2, typed.2)
  | "schema-element" =>
      let name := readName text
      (.schemaElement name.1, name.2.tail)
  | "schema-attribute" =>
      let name := readName text
      (.schemaAttribute name.1, name.2.tail)
  | "processing-instruction" =>
      let target := readTarget text
      (.processingInstruction target.1, target.2)
  | "document-node" =>
      if text.head? = some ')' then (.document, text.tail)
      else
        let inner := readInner text
        (.documentOf inner.1, inner.2.tail)
  | _ => (.anyKind, text)

def readKindWith (readInner : List Char → KindTest × List Char) (text : List Char) :
    KindTest × List Char :=
  readArguments readInner (word text) (behindWord text).tail

/-- Reads a kind test that stands in no other. -/
def readKind (text : List Char) : KindTest × List Char :=
  readKindWith (readKindWith fun text => (.anyKind, text)) text

def readTest (text : List Char) : NodeTest × List Char :=
  if (behindWord text).head? = some '(' then
    let kind := readKind text
    (.kind kind.1, kind.2)
  else
    let name := readName text
    (.name name.1, name.2)

def readStep (text : List Char) : AxisStep × List Char :=
  if text.head? = some '.' then
    if text.tail.head? = some '.' then (⟨.parent, .kind .anyKind⟩, text.tail.tail)
    else (⟨.self, .kind .anyKind⟩, text.tail)
  else if text.head? = some '@' then
    let test := readTest text.tail
    (⟨.attribute, test.1⟩, test.2)
  else if (behindWord text).head? = some ':' ∧ (behindWord text).tail.head? = some ':' then
    let test := readTest (behindWord text).tail.tail
    (⟨(Axis.ofName? (String.ofList (word text))).getD .child, test.1⟩, test.2)
  else
    let test := readTest text
    (⟨.child, test.1⟩, test.2)

def readSeparator (text : List Char) : Option Depth × List Char :=
  if text.head? = some '/' then
    if text.tail.head? = some '/' then (some .descendantOrSelf, text.tail.tail)
    else (some .child, text.tail)
  else (none, text)

/-- What a separator between two steps adds to a path. -/
def interior : Depth → Path
  | .child => []
  | .descendantOrSelf => [.separator .descendantOrSelf]

/-- Reads at most `fuel` steps and the separators between them. -/
def readSteps : Nat → List Char → Path
  | 0, _ => []
  | fuel + 1, text =>
      let step := readStep text
      .axis step.1 ::
        match readSeparator step.2 with
        | (none, _) => []
        | (some depth, rest) => interior depth ++ readSteps fuel rest

/-- Reads a path of at most `fuel` steps. -/
def readPath (fuel : Nat) (text : List Char) : Path :=
  match readSeparator text with
  | (none, rest) => readSteps fuel rest
  | (some depth, rest) => .separator depth :: if rest = [] then [] else readSteps fuel rest

end Written

/-! ## Names -/

/-- The characters that the written form of a node test starts with. -/
def OpensTest (c : Char) : Prop := Token.isNameStart c = true ∨ c = '*'

/-- A text that starts as a node test does. -/
def Opens (text : List Char) : Prop := ∃ c ∈ text.head?, OpensTest c

theorem Opens.append {text : List Char} (opens : Opens text) (rest : List Char) :
    Opens (text ++ rest) := by
  obtain ⟨c, isHead, isOpening⟩ := opens
  exact ⟨c, List.mem_head?_append_of_mem_head? isHead, isOpening⟩

/-- No sign starts a name. -/
theorem head_ne_of_isNameText {name : List Char} (isName : Token.isNameText name = true)
    {sign : Char} (isSign : sign ∈ Token.signs) (rest : List Char) :
    (name ++ rest).head? ≠ some sign := by
  cases name with
  | nil => cases isName
  | cons first more =>
      intro same
      obtain rfl : first = sign := Option.some.inj same
      simp [Token.isNameText, Token.isNameStart_of_mem_signs first isSign] at isName

/-- Signs other than `*` start no node test. -/
theorem Opens.head_ne {text : List Char} (opens : Opens text) {sign : Char}
    (isSign : sign ∈ Token.signs) (notStar : sign ≠ '*') : text.head? ≠ some sign := by
  obtain ⟨c, isHead, starts | rfl⟩ := opens
  · intro same
    obtain rfl : sign = c := Option.some.inj (same.symm.trans isHead)
    rw [Token.isNameStart_of_mem_signs sign isSign] at starts
    cases starts
  · intro same
    exact notStar (Option.some.inj (same.symm.trans isHead))

theorem Opens.not_closed {text : List Char} (opens : Opens text) : text.head? ≠ some ')' :=
  opens.head_ne (by decide) (by decide)

theorem opens_name {name : List Char} (isName : Token.isNameText name = true) : Opens name := by
  cases name with
  | nil => cases isName
  | cons first rest => exact ⟨first, rfl, .inl (Bool.and_eq_true_iff.mp isName).1⟩

theorem NamePart.Canonical.opens {part : NamePart} (canonical : part.Canonical) :
    Opens part.render.toList := by
  cases part with
  | any => exact ⟨'*', rfl, .inr rfl⟩
  | named text => exact opens_name (Token.IsName.isNameText canonical)

theorem QName.toList_render_qualified (qualifier part : NamePart) (rest : List Char) :
    (QName.mk (some qualifier) part).render.toList ++ rest =
      qualifier.render.toList ++ ':' :: (part.render.toList ++ rest) := by
  simp [QName.render]

theorem QName.Canonical.opens {name : QName} (canonical : name.Canonical) :
    Opens name.render.toList := by
  obtain ⟨_ | qualifier, part⟩ := name
  · exact canonical.localPart.opens
  · rw [← List.append_nil (QName.render _).toList, QName.toList_render_qualified]
    exact (canonical.qualifier qualifier rfl).opens.append _

theorem ends_colon (rest : List Char) : ∀ c ∈ (':' :: rest).head?, EndsName c := by
  rintro _ ⟨rfl⟩
  exact Token.endsName_sign ':' (by decide)

theorem ends_parenOpen (rest : List Char) : ∀ c ∈ ('(' :: rest).head?, EndsName c := by
  rintro _ ⟨rfl⟩
  exact Token.endsName_sign '(' (by decide)

namespace Written

/-- A name in front of something that does not go on with it. -/
theorem word_append {name rest : List Char} (isName : Token.isNameText name = true)
    (ends : ∀ c ∈ rest.head?, EndsName c) : word (name ++ rest) = name :=
  Token.takeWhile_append (Token.all_isNamePart isName) ends

theorem behindWord_append {name rest : List Char} (isName : Token.isNameText name = true)
    (ends : ∀ c ∈ rest.head?, EndsName c) : behindWord (name ++ rest) = rest :=
  Token.dropWhile_append (Token.all_isNamePart isName) ends

theorem readPart_render {part : NamePart} (canonical : part.Canonical) {rest : List Char}
    (ends : ∀ c ∈ rest.head?, EndsName c) :
    readPart (part.render.toList ++ rest) = (part, rest) := by
  cases part with
  | any => rfl
  | named text =>
      have isName := Token.IsName.isNameText canonical
      have notStar := @head_ne_of_isNameText _ isName '*' (by decide) rest
      rw [NamePart.render, readPart, if_neg notStar, word_append isName ends,
        behindWord_append isName ends, String.ofList_toList]

/-- What may stand behind a name that is read. -/
def StopsName (rest : List Char) : Prop := ∀ c ∈ rest.head?, c ∈ [',', ')', '/']

theorem StopsName.ends {rest : List Char} (stops : StopsName rest) :
    ∀ c ∈ rest.head?, EndsName c := by
  intro c isHead
  apply Token.endsName_sign
  have signs : [',', ')', '/'] ⊆ [':', ',', '(', ')', '/', '*'] := by simp
  exact signs (stops c isHead)

theorem readName_render {name : QName} (canonical : name.Canonical) {rest : List Char}
    (stops : StopsName rest) : readName (name.render.toList ++ rest) = (name, rest) := by
  have readLocal := readPart_render canonical.localPart stops.ends
  obtain ⟨_ | qualifier, part⟩ := name
  · have notColon : rest.head? ≠ some ':' := by
      intro isColon
      have member := stops ':' isColon
      simp at member
    simp only [QName.render, readName, readLocal, if_neg notColon]
  · have readFirst := readPart_render (canonical.qualifier qualifier rfl)
      (ends_colon (part.render.toList ++ rest))
    rw [QName.toList_render_qualified, readName, readFirst]
    simp [readLocal]

/-! ## Kind tests -/

end Written

/-- A kind test whose names are well spelled and whose target does not hold a `)`. -/
inductive KindTest.Legible : KindTest → Prop where
  | anyKind : Legible .anyKind
  | text : Legible .text
  | comment : Legible .comment
  | element {name typeName : Option QName} (named : ∀ one ∈ name, one.Canonical)
      (typed : ∀ one ∈ typeName, one.Canonical) : Legible (.element name typeName)
  | attribute {name typeName : Option QName} (named : ∀ one ∈ name, one.Canonical)
      (typed : ∀ one ∈ typeName, one.Canonical) : Legible (.attribute name typeName)
  | schemaElement {name : QName} (canonical : name.Canonical) : Legible (.schemaElement name)
  | schemaAttribute {name : QName} (canonical : name.Canonical) : Legible (.schemaAttribute name)
  | processingInstruction {target : Option String} (closed : ∀ text ∈ target, ')' ∉ text.toList) :
      Legible (.processingInstruction target)
  | document : Legible .document
  | documentOf {inner : KindTest} (legible : inner.Legible)
      (elements : Grammar.isElementTest inner = true) : Legible (.documentOf inner)

/-- What stands between the parentheses of a written kind test. -/
def KindTest.inside : KindTest → String
  | .element name typeName | .attribute name typeName => renderTyped name typeName
  | .schemaElement name | .schemaAttribute name => name.render
  | .processingInstruction target => target.getD ""
  | .documentOf inner => inner.render
  | _ => ""

theorem KindTest.render_eq (kind : KindTest) :
    kind.render = Tree.keywordOf kind ++ "(" ++ kind.inside ++ ")" := by
  have opening : ∀ (keyword : String) {opened : String}, opened = keyword ++ "(" → ∀ inside,
      opened ++ inside ++ ")" = keyword ++ "(" ++ inside ++ ")" := by
    rintro _ _ rfl _
    rfl
  cases kind with
  | element => exact opening "element" (by decide) _
  | «attribute» => exact opening "attribute" (by decide) _
  | schemaElement => exact opening "schema-element" (by decide) _
  | schemaAttribute => exact opening "schema-attribute" (by decide) _
  | processingInstruction target =>
      cases target with
      | none => decide
      | some target => exact opening "processing-instruction" (by decide) target
  | documentOf => exact opening "document-node" (by decide) _
  | anyKind | text | comment | document => decide

theorem KindTest.toList_render (kind : KindTest) (rest : List Char) :
    kind.render.toList ++ rest =
      (Tree.keywordOf kind).toList ++ '(' :: (kind.inside.toList ++ ')' :: rest) := by
  rw [render_eq, String.toList_append, String.toList_append, String.toList_append]
  simp only [List.append_assoc]
  rfl

theorem keywordOf_mem (kind : KindTest) : Tree.keywordOf kind ∈ keywords := by
  cases kind <;> simp [Tree.keywordOf, keywords]

theorem KindTest.opens (kind : KindTest) : Opens kind.render.toList := by
  rw [← List.append_nil kind.render.toList, toList_render]
  exact (opens_name (isNameText_keyword (keywordOf_mem kind))).append _

namespace Written

theorem stopsName_parenClose (rest : List Char) : StopsName (')' :: rest) := by
  rintro _ ⟨rfl⟩
  decide

theorem readTyped_render {name typeName : Option QName} (named : ∀ one ∈ name, one.Canonical)
    (typed : ∀ one ∈ typeName, one.Canonical) (rest : List Char) :
    readTyped ((KindTest.renderTyped name typeName).toList ++ ')' :: rest) =
      ((name, name.bind fun _ => typeName), rest) := by
  cases name with
  | none => rfl
  | some name =>
      have canonical := named name rfl
      cases typeName with
      | none =>
          have notClosed := (canonical.opens.append (')' :: rest)).not_closed
          have read := readName_render canonical (stopsName_parenClose rest)
          rw [KindTest.renderTyped, readTyped, if_neg notClosed, read]
          rfl
      | some typeName =>
          have spelled : (KindTest.renderTyped (some name) (some typeName)).toList ++ ')' :: rest =
              name.render.toList ++ ',' :: ' ' :: (typeName.render.toList ++ ')' :: rest) := by
            simp [KindTest.renderTyped]
          have notClosed := (canonical.opens.append
            (',' :: ' ' :: (typeName.render.toList ++ ')' :: rest))).not_closed
          have stops : StopsName (',' :: ' ' :: (typeName.render.toList ++ ')' :: rest)) := by
            rintro _ ⟨rfl⟩
            decide
          have read := readName_render canonical stops
          have readType := readName_render (typed typeName rfl) (stopsName_parenClose rest)
          rw [spelled, readTyped, if_neg notClosed, read]
          simp [readType]

theorem readTarget_render {target : Option String} (closed : ∀ text ∈ target, ')' ∉ text.toList)
    (rest : List Char) :
    readTarget ((target.getD "").toList ++ ')' :: rest) = (target.filter (· ≠ ""), rest) := by
  cases target with
  | none => rfl
  | some target =>
      have inside : target.toList.all (· ≠ ')') = true := by
        rw [List.all_eq_true]
        intro c member
        simpa using fun same : c = ')' => closed target rfl (same ▸ member)
      have stops : ∀ c ∈ (')' :: rest).head?, decide (c ≠ ')') = false := by
        rintro _ ⟨rfl⟩
        rfl
      by_cases empty : target = ""
      · subst empty
        rfl
      · have notClosed : (target.toList ++ ')' :: rest).head? ≠ some ')' := by
          cases chars : target.toList with
          | nil => exact absurd (String.toList_eq_nil_iff.mp chars) empty
          | cons first more =>
              rw [chars, List.all_cons] at inside
              simpa using (Bool.and_eq_true_iff.mp inside).1
        rw [Option.getD_some, readTarget, if_neg notClosed, Token.takeWhile_append inside stops,
          Token.dropWhile_append inside stops, String.ofList_toList]
        simp [Option.filter, empty]

theorem readKindWith_render {readInner : List Char → KindTest × List Char} {kind : KindTest}
    (legible : kind.Legible)
    (reads : ∀ inner, kind = .documentOf inner → ∀ rest,
      readInner (inner.render.toList ++ rest) = (inner.shown, rest))
    (rest : List Char) :
    readKindWith readInner (kind.render.toList ++ rest) = (kind.shown, rest) := by
  have isName := isNameText_keyword (keywordOf_mem kind)
  have ends := ends_parenOpen (kind.inside.toList ++ ')' :: rest)
  rw [kind.toList_render, readKindWith, word_append isName ends, behindWord_append isName ends,
    List.tail_cons, readArguments, String.ofList_toList]
  cases legible with
  | anyKind | text | comment | document => rfl
  | element named typed | «attribute» named typed =>
      have read := readTyped_render named typed rest
      simp only [Tree.keywordOf, KindTest.inside, read, KindTest.shown]
  | schemaElement canonical | schemaAttribute canonical =>
      have read := readName_render canonical (stopsName_parenClose rest)
      simp only [Tree.keywordOf, KindTest.inside, read, KindTest.shown, List.tail_cons]
  | processingInstruction closed =>
      have read := readTarget_render closed rest
      simp only [Tree.keywordOf, KindTest.inside, read, KindTest.shown]
  | @documentOf inner legible elements =>
      have notClosed := (inner.opens.append (')' :: rest)).not_closed
      have read := reads inner rfl (')' :: rest)
      simp only [Tree.keywordOf, KindTest.inside, read, KindTest.shown, List.tail_cons,
        if_neg notClosed]

theorem readKind_render {kind : KindTest} (legible : kind.Legible) (rest : List Char) :
    readKind (kind.render.toList ++ rest) = (kind.shown, rest) := by
  refine readKindWith_render legible ?_ rest
  rintro inner rfl rest
  cases legible with
  | documentOf legible elements =>
      refine readKindWith_render legible ?_ rest
      rintro _ rfl
      cases elements

end Written

/-! ## Node tests -/

def NodeTest.Legible : NodeTest → Prop
  | .name accepted => accepted.Canonical
  | .kind accepted => accepted.Legible

theorem NodeTest.Legible.opens {test : NodeTest} (legible : test.Legible) :
    Opens test.render.toList := by
  cases test with
  | name accepted => exact QName.Canonical.opens legible
  | kind accepted => exact accepted.opens

namespace Written

/-- What may stand behind a step that is read. -/
def StopsStep (rest : List Char) : Prop := ∀ c ∈ rest.head?, c = '/'

theorem StopsStep.stopsName {rest : List Char} (stops : StopsStep rest) : StopsName rest := by
  intro c isHead
  rw [stops c isHead]
  decide

theorem StopsStep.head_ne {rest : List Char} (stops : StopsStep rest) {sign : Char}
    (notSlash : sign ≠ '/') : rest.head? ≠ some sign :=
  fun isHead => notSlash (stops sign isHead)

/-- Behind the first word of a name is a `*`, or else what is behind the name. -/
theorem head_behindWord {part : NamePart} (canonical : part.Canonical) {rest : List Char}
    (ends : ∀ c ∈ rest.head?, EndsName c) {sign : Char} (notStar : sign ≠ '*')
    (notNext : rest.head? ≠ some sign) :
    (behindWord (part.render.toList ++ rest)).head? ≠ some sign := by
  cases part with
  | any =>
      have noPart : Token.isNamePart '*' = false := Token.endsName_sign '*' (by decide)
      simpa [NamePart.render, behindWord, noPart] using notStar.symm
  | named text =>
      rw [NamePart.render, behindWord_append (Token.IsName.isNameText canonical) ends]
      exact notNext

theorem behindWord_kind (kind : KindTest) (rest : List Char) :
    (behindWord (kind.render.toList ++ rest)).head? = some '(' := by
  rw [kind.toList_render,
    behindWord_append (isNameText_keyword (keywordOf_mem kind)) (ends_parenOpen _)]
  rfl

/-- A name is no kind test. -/
theorem head_behindWord_name {name : QName} (canonical : name.Canonical) {rest : List Char}
    (stops : StopsStep rest) : (behindWord (name.render.toList ++ rest)).head? ≠ some '(' := by
  obtain ⟨_ | qualifier, part⟩ := name
  · exact head_behindWord canonical.localPart stops.stopsName.ends (by decide)
      (stops.head_ne (by decide))
  · rw [QName.toList_render_qualified]
    exact head_behindWord (canonical.qualifier qualifier rfl) (ends_colon _) (by decide) (by simp)

/-- No axis stands in front of a node test. -/
theorem noAxis {test : NodeTest} (legible : test.Legible) {rest : List Char}
    (stops : StopsStep rest) :
    ¬((behindWord (test.render.toList ++ rest)).head? = some ':' ∧
      (behindWord (test.render.toList ++ rest)).tail.head? = some ':') := by
  rintro ⟨first, second⟩
  cases test with
  | kind accepted =>
      rw [NodeTest.render, behindWord_kind] at first
      cases first
  | name accepted =>
      obtain ⟨_ | qualifier, part⟩ := accepted
      · exact head_behindWord legible.localPart stops.stopsName.ends (by decide)
          (stops.head_ne (by decide)) first
      · rw [NodeTest.render, QName.toList_render_qualified] at first second
        cases qualifier with
        | any =>
            have noPart : Token.isNamePart '*' = false := Token.endsName_sign '*' (by decide)
            simp [NamePart.render, behindWord, noPart] at first
        | named text =>
            have isName := Token.IsName.isNameText (legible.qualifier _ rfl)
            rw [NamePart.render, behindWord_append isName (ends_colon _)] at second
            exact (legible.localPart.opens.append rest).head_ne (by decide) (by decide) second

theorem readTest_render {test : NodeTest} (legible : test.Legible) {rest : List Char}
    (stops : StopsStep rest) : readTest (test.render.toList ++ rest) = (test.shown, rest) := by
  cases test with
  | kind accepted =>
      rw [NodeTest.render, readTest, if_pos (behindWord_kind accepted rest),
        readKind_render legible]
      rfl
  | name accepted =>
      rw [NodeTest.render, readTest, if_neg (head_behindWord_name legible stops),
        readName_render legible stops.stopsName]
      rfl

/-! ## Steps -/

theorem readStep_plain {test : NodeTest} (legible : test.Legible) {rest : List Char}
    (stops : StopsStep rest) :
    readStep (test.render.toList ++ rest) = (⟨.child, test.shown⟩, rest) := by
  have opens := legible.opens.append rest
  rw [readStep, if_neg (opens.head_ne (by decide) (by decide)),
    if_neg (opens.head_ne (by decide) (by decide)), if_neg (noAxis legible stops),
    readTest_render legible stops]

theorem readStep_named (axis : Axis) {test : NodeTest} (legible : test.Legible) {rest : List Char}
    (stops : StopsStep rest) :
    readStep ((axis.render ++ "::" ++ test.render).toList ++ rest) =
      (⟨axis, test.shown⟩, rest) := by
  have isName := isNameText_axis axis
  have spelled : (axis.render ++ "::" ++ test.render).toList ++ rest =
      axis.render.toList ++ ':' :: ':' :: (test.render.toList ++ rest) := by
    simp
  have ends := ends_colon (':' :: (test.render.toList ++ rest))
  rw [spelled, readStep, if_neg (head_ne_of_isNameText isName (by decide) _),
    if_neg (head_ne_of_isNameText isName (by decide) _), behindWord_append isName ends,
    word_append isName ends, if_pos ⟨rfl, rfl⟩, String.ofList_toList, Axis.ofName?_render]
  simp [readTest_render legible stops]

theorem readStep_short {test : NodeTest} (legible : test.Legible) {rest : List Char}
    (stops : StopsStep rest) :
    readStep (("@" ++ test.render).toList ++ rest) = (⟨.attribute, test.shown⟩, rest) := by
  have spelled : ("@" ++ test.render).toList ++ rest = '@' :: (test.render.toList ++ rest) := by
    simp
  rw [spelled, readStep, if_neg (by simp), if_pos List.head?_cons, List.tail_cons,
    readTest_render legible stops]

theorem readStep_render {step : AxisStep} (legible : step.test.Legible) {rest : List Char}
    (stops : StopsStep rest) : readStep (step.render.toList ++ rest) = (step.shown, rest) := by
  obtain ⟨axis, test⟩ := step
  simp only [AxisStep.render]
  split
  · rfl
  · have isDot : (".".toList ++ rest).head? = some '.' := rfl
    rw [readStep, if_pos isDot]
    exact if_neg (stops.head_ne (by decide))
  · exact readStep_short legible stops
  · split
    · exact readStep_named .child legible stops
    · exact readStep_plain legible stops
  · exact readStep_plain legible stops
  · exact readStep_named axis legible stops

end Written

/-! ## Paths -/

/-- A text that starts, and not with a separator. -/
def StartsStep (text : List Char) : Prop := ∃ c ∈ text.head?, c ≠ '/'

theorem StartsStep.head_ne {text : List Char} (starts : StartsStep text) :
    text.head? ≠ some '/' := by
  obtain ⟨c, isHead, notSlash⟩ := starts
  intro isSlash
  exact notSlash (Option.some.inj (isHead.symm.trans isSlash))

theorem StartsStep.ne_nil {text : List Char} (starts : StartsStep text) : text ≠ [] := by
  rintro rfl
  obtain ⟨_, ⟨⟩, _⟩ := starts

theorem Opens.startsStep {text : List Char} (opens : Opens text) : StartsStep text := by
  obtain ⟨c, isHead, isOpening⟩ := opens
  refine ⟨c, isHead, ?_⟩
  rintro rfl
  exact Opens.head_ne ⟨_, isHead, isOpening⟩ (by decide) (by decide) isHead

theorem AxisStep.startsStep {step : AxisStep} (legible : step.test.Legible) (rest : List Char) :
    StartsStep (step.render.toList ++ rest) := by
  obtain ⟨axis, test⟩ := step
  have plain : StartsStep (test.render.toList ++ rest) := (legible.opens.append rest).startsStep
  have named : ∀ axis : Axis, StartsStep ((axis.render ++ "::" ++ test.render).toList ++ rest) := by
    intro axis
    rw [String.toList_append, String.toList_append, List.append_assoc, List.append_assoc]
    exact ((opens_name (isNameText_axis axis)).append _).startsStep
  simp only [AxisStep.render]
  split
  · exact ⟨'.', rfl, by decide⟩
  · exact ⟨'.', rfl, by decide⟩
  · exact ⟨'@', by simp, by decide⟩
  · split
    · exact named .child
    · exact plain
  · exact plain
  · exact named axis

theorem Path.startsStep {step : AxisStep} (legible : step.test.Legible) (path : Path) :
    StartsStep (Path.render (.axis step :: path)).toList := by
  have split : ∃ rest, Path.render (.axis step :: path) = step.render ++ rest := by
    rcases path with _ | ⟨_ | _, path⟩
    · exact ⟨"", String.append_empty.symm⟩
    · exact ⟨_, rfl⟩
    · exact ⟨_, String.append_assoc⟩
  obtain ⟨rest, rendered⟩ := split
  rw [rendered, String.toList_append]
  exact step.startsStep legible rest.toList

namespace Written

theorem readSeparator_depth (depth : Depth) {text : List Char} (starts : StartsStep text) :
    readSeparator (depth.render.toList ++ text) = (some depth, text) := by
  cases depth with
  | child =>
      have isSlash : (Depth.child.render.toList ++ text).head? = some '/' := rfl
      rw [readSeparator, if_pos isSlash]
      exact if_neg starts.head_ne
  | descendantOrSelf => rfl

theorem readSeparator_none {text : List Char} (starts : StartsStep text) :
    readSeparator text = (none, text) :=
  if_neg starts.head_ne

theorem stopsStep_depth (depth : Depth) (text : List Char) :
    StopsStep (depth.render.toList ++ text) := by
  cases depth <;> rintro _ ⟨rfl⟩ <;> rfl

/-- A step and the separator behind it are read in front of another step. -/
theorem readSteps_succ {first : AxisStep} (legible : first.test.Legible) (depth : Depth)
    {text : List Char} (starts : StartsStep text) (fuel : Nat) :
    readSteps (fuel + 1) (first.render.toList ++ (depth.render.toList ++ text)) =
      .axis first.shown :: (interior depth ++ readSteps fuel text) := by
  rw [readSteps, readStep_render legible (stopsStep_depth depth text)]
  dsimp only
  rw [readSeparator_depth depth starts]

theorem interior_eq (separator : Grammar.Separator) :
    separator.interior = interior separator.depth := by
  rw [Grammar.Separator.interior]
  cases separator.depth <;> rfl

theorem shown_interior (depth : Depth) : (interior depth).map Step.shown = interior depth := by
  cases depth <;> rfl

/-- A separator is written between two steps, whether it is kept or implied. -/
theorem render_interior (first second : AxisStep) (depth : Depth) (path : Path) :
    (Path.render (.axis first :: (interior depth ++ .axis second :: path))).toList =
      first.render.toList ++
        (depth.render.toList ++ (Path.render (.axis second :: path)).toList) := by
  rw [← String.toList_append, ← String.toList_append]
  cases depth with
  | child => exact congrArg String.toList String.append_assoc
  | descendantOrSelf => rfl

/-- Steps behind a first one are read back one by one. -/
theorem readSteps_render {later : List Grammar.LaterStep} {path : Path}
    (denote : Grammar.LaterDenote later path) {first : AxisStep} {fuel : Nat}
    (enough : path.length < fuel)
    (legible : ∀ step, .axis step ∈ Step.axis first :: path → step.test.Legible) :
    readSteps fuel (Path.render (.axis first :: path)).toList =
      Path.shown (.axis first :: path) := by
  obtain ⟨fuel, rfl⟩ := Nat.exists_eq_succ_of_ne_zero (Nat.ne_zero_of_lt enough)
  have legibleFirst := legible first List.mem_cons_self
  induction denote generalizing first fuel with
  | nil =>
      have atEnd : StopsStep [] := by rintro _ ⟨⟩
      have read := readStep_render legibleFirst atEnd
      rw [List.append_nil] at read
      have rendered : Path.render [.axis first] = first.render := rfl
      rw [rendered, readSteps, read]
      rfl
  | @cons _ meaning _ path separator _ _ ih =>
      rw [interior_eq] at enough legible ⊢
      have legibleNext := legible meaning (by simp)
      have legibleLater : ∀ step, .axis step ∈ Step.axis meaning :: path → step.test.Legible :=
        fun step member => legible step (List.mem_cons_of_mem _ (List.mem_append_right _ member))
      have shorter : path.length < fuel := by
        simp only [List.length_append, List.length_cons] at enough
        omega
      obtain ⟨fuel, rfl⟩ := Nat.exists_eq_succ_of_ne_zero (Nat.ne_zero_of_lt shorter)
      rw [render_interior, readSteps_succ legibleFirst _ (Path.startsStep legibleNext path),
        ih legibleLater fuel shorter legibleNext]
      simp only [Path.shown, List.map_cons, List.map_append, Step.shown, shown_interior]

/-- Of a written path is read what the path shows. -/
theorem readPath_render {derived : Grammar.Path} {path : Path} (denotes : derived.Denotes path)
    (legible : ∀ step, .axis step ∈ path → step.test.Legible) {fuel : Nat}
    (enough : path.length ≤ fuel) : readPath fuel path.render.toList = path.shown := by
  cases denotes with
  | root => rfl
  | @steps _ meaning _ later leading _ rest =>
      have legibleSteps : ∀ step, .axis step ∈ Step.axis meaning :: later → step.test.Legible :=
        fun step member => legible step (List.mem_append_right _ member)
      have starts := Path.startsStep (legibleSteps meaning List.mem_cons_self) later
      have longEnough : later.length < fuel := by
        simp only [List.length_append, List.length_cons] at enough
        omega
      have read := readSteps_render rest longEnough legibleSteps
      cases leading with
      | none =>
          rw [Option.map_none, Option.toList_none, List.nil_append, readPath,
            readSeparator_none starts]
          exact read
      | some separator =>
          have rendered : Path.render (.separator separator.depth :: .axis meaning :: later) =
              separator.depth.render ++ Path.render (.axis meaning :: later) := rfl
          rw [Option.map_some, Option.toList_some, List.singleton_append, rendered,
            String.toList_append, readPath, readSeparator_depth _ starts]
          dsimp only
          rw [if_neg starts.ne_nil, read]
          rfl

end Written

end PathCover
