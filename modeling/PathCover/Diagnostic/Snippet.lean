import PathCover.Diagnostic.Basic
import PathCover.Text.Width

/-!
# Diagnostics with source snippets

A diagnostic for people: its message, the text that it is about on a line of its own, and below that
line marks under the stretches that it points at.  The marks of a related stretch carry its message.
Of a text that starts with many blanks only the last ones are shown.
-/

namespace PathCover.Diagnostic

/-- How snippets are shown. -/
structure SnippetOptions where
  /-- Where the text comes from, for the header. -/
  origin : Option String
  colored : Bool
  deriving DecidableEq, Inhabited

/-- What a piece of a snippet is, which decides its color. -/
inductive Paint where
  | plain
  | bold
  | severity (severity : Severity)
  | frame
  deriving DecidableEq, Inhabited

/-- The terminal codes that a paint starts with, if it has any. -/
def Paint.codes : Paint → String
  | .plain => ""
  | .bold => "\x1b[1m"
  | .severity .error => "\x1b[1m\x1b[91m"
  | .severity .warning => "\x1b[1m\x1b[33m"
  | .frame => "\x1b[1m\x1b[94m"

/-- A piece of text in its color. -/
def paint (colored : Bool) (kind : Paint) (text : String) : String :=
  if colored && kind ≠ .plain then kind.codes ++ text ++ "\x1b[0m" else text

/-- What is shown in the place of a character: a picture of a control character, nothing for one
that joins its neighbours, and a replacement for one that would change the direction of the text. -/
def shown (c : Char) : List Char :=
  if c < ' ' then [Char.ofNat (0x2400 + c.toNat)]
  else if c = '\x7f' then ['\u2421']
  else if c = '\u200d' then []
  else if '\u202a' ≤ c ∧ c ≤ '\u202e' ∨ '\u2066' ≤ c ∧ c ≤ '\u2069' then ['\ufffd']
  else [c]

/-- A text as it is shown. -/
def shownText (text : String) : String := String.ofList (text.toList.flatMap shown)

/-- How many columns a character takes up. -/
def columns (c : Char) : Nat := if shown c = [c] then Text.width c else (shown c).length

/-- The characters of a text that lie in front of a byte offset. -/
def charsBefore (offset : Nat) : List Char → List Char
  | [] => []
  | c :: rest => if offset = 0 then [] else c :: charsBefore (offset - c.utf8Size) rest

/-- The column in which a byte offset of a text is shown. -/
def columnOf (source : String) (offset : Nat) : Nat :=
  (charsBefore offset source.toList).foldr (fun c column => columns c + column) 0

/-- The stretch to mark for a span.  An empty one is widened to one byte if there is one. -/
def visible (span : Text.Span) (source : String) : Text.Span :=
  if span.start < span.stop then span
  else ⟨span.start, min (span.start + 1) source.utf8ByteSize⟩

/-- Whether a character at the start of a text is a blank that need not be shown.  These are the
blanks that separate the words of formal languages, to which the no-break spaces do not belong. -/
def isLeadingBlank (c : Char) : Bool :=
  '\t' ≤ c && c ≤ '\r' || c = ' ' || c = '\u0085' || c = '\u200e' || c = '\u200f' ||
    c = '\u2028' || c = '\u2029'

/-- How many columns are left out at the start of a text.  More than twenty-six blanks in front of
something else are cut to twenty-two. -/
def hiddenColumns (source : String) : Nat :=
  let blanks := source.toList.takeWhile isLeadingBlank
  if 26 < blanks.length ∧ blanks.length < source.length then blanks.length - 22 else 0

/-- A text without the characters in its first columns. -/
def dropColumns (count : Nat) : List Char → List Char
  | [] => []
  | c :: rest => if count = 0 then c :: rest else dropColumns (count - columns c) rest

/-- A text as it is shown, with an ellipsis over its first columns if some before them are left
out. -/
def shownSource (colored : Bool) (source : String) : String :=
  match hiddenColumns source with
  | 0 => shownText source
  | hidden =>
      paint colored .frame "..." ++
        shownText (String.ofList (dropColumns (hidden + 3) source.toList))

/-- The columns to mark for a span: the first one and how many. -/
def markedColumns (span : Text.Span) (source : String) : Nat × Nat :=
  let stretch := visible span source
  let first := columnOf source stretch.start
  (first, max 1 (columnOf source stretch.stop - first))

/-- The width of the frame to the left of the text. -/
def frameWidth : Nat := 4

/-- The cells of a line that show marked columns: the first one and how many.  What lies in front of
the columns that are left out goes over the frame. -/
def markedCells (hidden : Nat) (stretch : Nat × Nat) : Nat × Nat :=
  let first := frameWidth + stretch.1 - hidden
  (first, frameWidth + stretch.1 + (stretch.2 - 1) - hidden + 1 - first)

/-- Whether a cell is among the marked ones. -/
def marks (stretch : Nat × Nat) (cell : Nat) : Bool :=
  stretch.1 ≤ cell && cell < stretch.1 + stretch.2

/-- What a cell of the line below the text holds. -/
inductive Mark where
  | blank
  | frame
  /-- A mark for the diagnostic itself. -/
  | own
  /-- A mark for a related stretch. -/
  | related
  deriving DecidableEq, Inhabited

/-- The sign of a mark. -/
def Mark.sign : Mark → Char
  | .blank => ' '
  | .frame => '|'
  | .own => '^'
  | .related => '-'

/-- The color of a mark. -/
def Mark.paint (severity : Severity) : Mark → Paint
  | .blank => .plain
  | .frame | .related => .frame
  | .own => .severity severity

/-- The mark in a cell.  Where the diagnostic and a related stretch both mark it the shorter stretch
shows, and of two that are equal the diagnostic's own. -/
def markAt (own : Nat × Nat) (related : List (Nat × Nat)) (cell : Nat) : Mark :=
  if related.any fun stretch =>
      marks stretch cell && (!marks own cell || stretch.2 < own.2) then .related
  else if marks own cell then .own
  else if cell = 2 then .frame
  else .blank

/-- Marks of one kind that stand together. -/
def renderRun (colored : Bool) (severity : Severity) (run : List Mark) : String :=
  match run with
  | [] => ""
  | mark :: _ => paint colored (mark.paint severity) (String.ofList (run.map Mark.sign))

/-- A line of marks, where neighbouring marks of one kind share their color. -/
def renderMarks (colored : Bool) (severity : Severity) (row : List Mark) : String :=
  String.join ((row.splitBy (· == ·)).map (renderRun colored severity))

/-- The space in front of a column. -/
def margin (column : Nat) : String := String.ofList (List.replicate column ' ')

/-- A line below the text, after the frame. -/
def framed (colored : Bool) (content : String) : String :=
  "  " ++ paint colored .frame "|" ++ (if content.isEmpty then "" else " " ++ content)

/-- The lines that lead from the mark of a related stretch to its message. -/
def labelLines (colored : Bool) (source : String) (related : Related) : List String :=
  let indent := margin ((markedColumns related.span source).1 - hiddenColumns source)
  [framed colored (indent ++ paint colored .frame "|"),
    framed colored (indent ++ paint colored .frame (shownText related.message))]

/-- A diagnostic with the text that it is about, line by line. -/
def snippetLines (options : SnippetOptions) (source : String) (diagnostic : Diagnostic) :
    List String :=
  let colored := options.colored
  let cells (span : Text.Span) := markedCells (hiddenColumns source) (markedColumns span source)
  let own := cells diagnostic.span
  let related := diagnostic.related.map fun part => cells part.span
  let width := (own :: related).foldl (fun width stretch => max width (stretch.1 + stretch.2)) 3
  let place := toString ((charsBefore diagnostic.span.start source.toList).length + 1)
  let line := shownSource colored source
  [paint colored (.severity diagnostic.severity) diagnostic.severity.render ++
      paint colored .bold (": " ++ shownText diagnostic.message)] ++
    (options.origin.map fun origin =>
      " " ++ paint colored .frame "--> " ++ origin ++ ":1:" ++ place).toList ++
    [framed colored "",
      paint colored .frame "1" ++ " " ++ paint colored .frame "|" ++
        (if line.isEmpty then "" else " " ++ line),
      renderMarks colored diagnostic.severity ((List.range width).map (markAt own related))] ++
    diagnostic.related.flatMap (labelLines colored source)

end PathCover.Diagnostic

namespace PathCover.Report

/-- The diagnostics of a report with the text that they are about. -/
def renderSnippets (options : Diagnostic.SnippetOptions) (source : String) (report : Report) :
    String :=
  "\n".intercalate (report.flatMap (Diagnostic.snippetLines options source))

end PathCover.Report
