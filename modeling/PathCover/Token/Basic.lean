import PathCover.Token.Kind
import PathCover.Text.Span

/-!
# Tokens

Offsets count bytes from the start of the text.  The tree library keeps them as text sizes of 32
bits, so texts are shorter than 4 GiB.  No offset of a token is greater than the size of the text,
and below that bound the natural numbers used here agree with those sizes.
-/

namespace PathCover

/-- A token: its kind, the offset of its first byte, and its text.  The offset stands for a text
size of 32 bits, in a text shorter than 4 GiB. -/
structure Token where
  kind : TokenKind
  start : Nat
  text : String
  deriving DecidableEq, Inhabited

namespace Token

/-- The offset of the byte after a token. -/
def stop (token : Token) : Nat := token.start + token.text.utf8ByteSize

/-- The stretch of the text that a token covers. -/
def span (token : Token) : Text.Span := ⟨token.start, token.stop⟩

end Token

end PathCover
