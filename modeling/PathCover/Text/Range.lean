/-!
# Sets of characters as ranges

A character property is a list of code point ranges, both ends included, in increasing order.
Membership walks the list and stops at the first range that lies above the character.
-/

namespace PathCover.Text

/-- A range of code points, first and last. -/
abbrev CharRange := Nat × Nat

/-- Whether a code point lies in one of the ranges, which are in increasing order. -/
def inRanges : List CharRange → Nat → Bool
  | [], _ => false
  | (first, last) :: rest, code =>
      if code < first then false else code ≤ last || inRanges rest code

/-- The range that a code point lies in, of ranges in increasing order. -/
def rangeOf? : List CharRange → Nat → Option CharRange
  | [], _ => none
  | (first, last) :: rest, code =>
      if code < first then none
      else if code ≤ last then some (first, last)
      else rangeOf? rest code

end PathCover.Text
