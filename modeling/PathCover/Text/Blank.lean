import PathCover.Text.Range

/-!
# Blanks

The characters with the Unicode property *white space*.  The text of a predicate is shown without
the blanks around it.
-/

namespace PathCover.Text

/-- The code points with the property *white space*. -/
def blankRanges : List CharRange :=
  [(9, 13), (32, 32), (133, 133), (160, 160), (5760, 5760), (8192, 8202), (8232, 8233),
    (8239, 8239), (8287, 8287), (12288, 12288)]

/-- Whether a character is white space. -/
def isBlank (c : Char) : Bool := inRanges blankRanges c.toNat

/-- A text without the blanks at its two ends. -/
def trim (text : List Char) : List Char :=
  ((text.dropWhile isBlank).reverse.dropWhile isBlank).reverse

example : trim " a b\n".toList = "a b".toList := by decide +kernel

end PathCover.Text
