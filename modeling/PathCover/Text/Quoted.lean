import PathCover.Text.Visible

/-!
# Quoted text

The form in which a dump shows the text of a token: between double quotes, on one line, with every
character that could be mistaken or not be seen written as an escape.
-/

namespace PathCover.Text

/-- A number in lower-case hexadecimal digits, without leading zeros. -/
def hexadecimal (n : Nat) : List Char := Nat.toDigits 16 n

/-- One character of a quoted text.  A quote, a backslash and the usual control characters have
short escapes; a character that extends the one before it or has no shape is given by its code
point. -/
def escapeQuoted (c : Char) : List Char :=
  if c = '"' then ['\\', '"']
  else if c = '\\' then ['\\', '\\']
  else if c = '\n' then ['\\', 'n']
  else if c = '\r' then ['\\', 'r']
  else if c = '\t' then ['\\', 't']
  else if c = '\x00' then ['\\', '0']
  else if isExtender c || isHidden c then
    ['\\', 'u', '\x7b'] ++ hexadecimal c.toNat ++ ['\x7d']
  else [c]

/-- A text between double quotes, with escapes. -/
def quoted (text : String) : String :=
  String.ofList ('"' :: (text.toList.flatMap escapeQuoted ++ ['"']))

example : quoted "it's \"a\"\n" = "\"it's \\\"a\\\"\\n\"" := by decide +kernel
example : quoted "e\u0301" = "\"e\\u\x7b301\x7d\"" := by decide +kernel

end PathCover.Text
