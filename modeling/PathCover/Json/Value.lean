/-!
# JSON values

The values that are written as JSON text, and their two written forms: on one line without spaces,
and over several lines with two spaces for each level.
-/

namespace PathCover

/-- A JSON value.  The members of an object keep their order. -/
inductive Json where
  | null
  | natural (value : Nat)
  | text (value : String)
  | array (items : List Json)
  | object (members : List (String × Json))

namespace Json

/-- A text, or null for none. -/
def optionalText : Option String → Json
  | none => .null
  | some value => .text value

/-- The control character of a given code as an escape of four digits. -/
def controlEscape (code : Nat) : List Char :=
  ['\\', 'u', '0', '0', (code / 16).digitChar, (code % 16).digitChar]

/-- One character of a written text.  Quotes, backslashes and control characters are escaped, the
usual control characters by a letter. -/
def escape (c : Char) : List Char :=
  if c = '"' then ['\\', '"']
  else if c = '\\' then ['\\', '\\']
  else if c = '\x08' then ['\\', 'b']
  else if c = '\x0c' then ['\\', 'f']
  else if c = '\n' then ['\\', 'n']
  else if c = '\r' then ['\\', 'r']
  else if c = '\t' then ['\\', 't']
  else if c < ' ' then controlEscape c.toNat
  else [c]

/-- A text between quotes, with escapes. -/
def quote (text : String) : String :=
  String.ofList ('"' :: (text.toList.flatMap escape ++ ['"']))

/-- Items one after the other with a comma between them. -/
def separated (items : List String) : String := ",".intercalate items

mutual

/-- A value on one line without spaces. -/
def compact : Json → String
  | .null => "null"
  | .natural value => toString value
  | .text value => quote value
  | .array items => "[" ++ separated (compactItems items) ++ "]"
  | .object members => "\x7b" ++ separated (compactMembers members) ++ "\x7d"

def compactItems : List Json → List String
  | [] => []
  | item :: rest => compact item :: compactItems rest

def compactMembers : List (String × Json) → List String
  | [] => []
  | (key, value) :: rest => (quote key ++ ":" ++ compact value) :: compactMembers rest

end

/-- A line break and the space in front of a line at a given level. -/
def lineBreak (level : Nat) : String := "\n" ++ String.ofList (List.replicate (2 * level) ' ')

/-- Items on lines of their own, one level below `level`, between two brackets. -/
def block (level : Nat) (opening closing : String) (items : List String) : String :=
  if items.isEmpty then opening ++ closing
  else
    opening ++ lineBreak (level + 1) ++ ("," ++ lineBreak (level + 1)).intercalate items ++
      lineBreak level ++ closing

mutual

/-- A value over several lines, where `level` is that of its first line. -/
def pretty (level : Nat) : Json → String
  | .null => "null"
  | .natural value => toString value
  | .text value => quote value
  | .array items => block level "[" "]" (prettyItems (level + 1) items)
  | .object members => block level "\x7b" "\x7d" (prettyMembers (level + 1) members)

def prettyItems (level : Nat) : List Json → List String
  | [] => []
  | item :: rest => pretty level item :: prettyItems level rest

def prettyMembers (level : Nat) : List (String × Json) → List String
  | [] => []
  | (key, value) :: rest => (quote key ++ ": " ++ pretty level value) :: prettyMembers level rest

end

/-- Puts a member in its place among members whose keys are in order. -/
def insertSorted (member : String × Json) : List (String × Json) → List (String × Json)
  | [] => [member]
  | next :: rest =>
      if next.1 < member.1 then next :: insertSorted member rest else member :: next :: rest

mutual

/-- The same value with the members of every object in the order of their keys. -/
def sortKeys : Json → Json
  | .null => .null
  | .natural value => .natural value
  | .text value => .text value
  | .array items => .array (sortItems items)
  | .object members => .object (sortMembers members)

def sortItems : List Json → List Json
  | [] => []
  | item :: rest => sortKeys item :: sortItems rest

def sortMembers : List (String × Json) → List (String × Json)
  | [] => []
  | (key, value) :: rest => insertSorted (key, sortKeys value) (sortMembers rest)

end

end Json

end PathCover
