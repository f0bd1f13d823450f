/-!
# Spans

A stretch of a text, given by the offsets of its first byte and of the byte after its last.  Both
stand for text sizes of 32 bits, in a text shorter than 4 GiB.
-/

namespace PathCover.Text

structure Span where
  start : Nat
  stop : Nat
  deriving DecidableEq, Inhabited

/-- The written form of a span in a message. -/
def Span.render (span : Span) : String := toString span.start ++ ".." ++ toString span.stop

end PathCover.Text
