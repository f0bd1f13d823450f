import PathCover.Json.Number
import PathCover.Text.Quoted

/-!
# Reading JSON

Values are read straight from the text, each by a step that knows what it expects.  So the first
fault on the way from the left is the one that is reported, whether it is a fault of the text or of
what it holds.

Arrays and objects nest only so deep; the number that is passed around as `room` is how many more
may be opened.  What is skipped because nothing asks for it may nest without bound.
-/

namespace PathCover.Json

/-- The blanks between the parts of a JSON text. -/
def isSpace (c : Char) : Bool := c = ' ' || c = '\n' || c = '\t' || c = '\r'

/-- The next character after blanks, which stays in the text; the blanks do not. -/
def peek : Read (Option Char) := fun text =>
  let text := text.dropWhile isSpace
  .ok (text.head?, text)

/-- Takes a character that has to be there. -/
def takeChar : Read Char := fun text =>
  match text with
  | [] => .error .truncated
  | c :: rest => .ok (c, rest)

/-- The value of a hexadecimal digit. -/
def hexDigit? (c : Char) : Option Nat :=
  if c.isDigit then some (c.toNat - '0'.toNat)
  else if 'a' ≤ c ∧ c ≤ 'f' then some (c.toNat - 'a'.toNat + 10)
  else if 'A' ≤ c ∧ c ≤ 'F' then some (c.toNat - 'A'.toNat + 10)
  else none

/-- The number that four hexadecimal digits write, the first one the highest. -/
def hexFour? (a b c d : Char) : Option Nat := do
  return (((← hexDigit? a) * 16 + (← hexDigit? b)) * 16 + (← hexDigit? c)) * 16 + (← hexDigit? d)

/-- The four hexadecimal digits of an escape.  A text with fewer than four bytes left has ended too
early, whatever they are. -/
def readHexFour : Read Nat := fun text =>
  if (String.ofList (text.take 4)).utf8ByteSize < 4 then .error .truncated
  else
    match text with
    | a :: b :: c :: d :: rest =>
        match hexFour? a b c d with
        | some value => .ok (value, rest)
        | none => .error .malformed
    | _ => .error .malformed

/-- The character of an escape by code point.  A high surrogate needs an escape with a low one right
after it; no surrogate may stand alone. -/
def readCodePoint : Read Char := do
  let unit ← readHexFour
  if 0xDC00 ≤ unit ∧ unit ≤ 0xDFFF then
    fault .malformed
  else if unit < 0xD800 ∨ 0xDBFF < unit then
    return Char.ofNat unit
  else
    if (← takeChar) ≠ '\\' then
      fault .malformed
    else if (← takeChar) ≠ 'u' then
      fault .malformed
    else
      let low ← readHexFour
      if low < 0xDC00 ∨ 0xDFFF < low then
        fault .malformed
      else
        return Char.ofNat (0x10000 + (unit - 0xD800) * 0x400 + (low - 0xDC00))

/-- The character of an escape, after its backslash. -/
def readEscape : Read Char := do
  match ← takeChar with
  | '"' => return '"'
  | '\\' => return '\\'
  | '/' => return '/'
  | 'b' => return '\x08'
  | 'f' => return '\x0c'
  | 'n' => return '\n'
  | 'r' => return '\r'
  | 't' => return '\t'
  | 'u' => readCodePoint
  | _ => fault .malformed

/-- The characters of a string, after its opening quote and up to its closing one. -/
def readChars : Nat → Read (List Char)
  | 0 => fault .truncated
  | fuel + 1 => do
      match ← takeChar with
      | '"' => return []
      | '\\' =>
          let c ← readEscape
          return c :: (← readChars fuel)
      | c =>
          if c < ' ' then
            fault .malformed
          else
            return c :: (← readChars fuel)

/-- A string, after its opening quote. -/
def readString : Read String := do
  return String.ofList (← readChars ((← get).length + 1))

/-- The rest of a word of which the first character was read. -/
def readWord : List Char → Read Unit
  | [] => return ()
  | expected :: rest => do
      if (← takeChar) ≠ expected then
        fault .malformed
      else
        readWord rest

/-- What stands next in the text, as it is named in a message.  Of an array or an object only its
start is read. -/
def describeNext : Read String := do
  match ← peek with
  | some 'n' => drop; readWord "ull".toList; return "null"
  | some 't' => drop; readWord "rue".toList; return "boolean `true`"
  | some 'f' => drop; readWord "alse".toList; return "boolean `false`"
  | some '-' => drop; return describeNumber true (← readMagnitude)
  | some '"' => drop; return "string " ++ Text.quoted (← readString)
  | some '[' => return "sequence"
  | some '\x7b' => return "map"
  | some c =>
      if c.isDigit then
        return describeNumber false (← readMagnitude)
      else
        fault .malformed
  | none => fault .truncated

/-- Refuses what stands next in the text because something else is expected. -/
def refuse {α : Type} (expected : String) : Read α := do
  fault (.mismatch ("invalid type: " ++ (← describeNext) ++ ", expected " ++ expected))

/-- A text value. -/
def readText : Read String := do
  match ← peek with
  | some '"' => drop; readString
  | _ => refuse "a string"

/-- A value or null. -/
def readOption {α : Type} (item : Read α) : Read (Option α) := do
  match ← peek with
  | some 'n' => drop; readWord "ull".toList; return none
  | _ => return some (← item)

/-- The next item of an array, if there is one. -/
def readItem? {α : Type} (first : Bool) (item : Read α) : Read (Option α) := do
  match ← peek with
  | none => fault .truncated
  | some ']' => return none
  | some c =>
      if first then
        return some (← item)
      else if c ≠ ',' then
        fault .malformed
      else
        drop
        match ← peek with
        | none => fault .truncated
        | some ']' => fault .malformed
        | some _ => return some (← item)

/-- The items of an array up to its closing bracket. -/
def readItems {α : Type} (item : Read α) : Nat → Bool → Read (List α)
  | 0, _ => fault .malformed
  | fuel + 1, first => do
      match ← readItem? first item with
      | none => return []
      | some value => return value :: (← readItems item fuel false)

/-- The closing bracket of an array. -/
def endArray : Read Unit := do
  match ← peek with
  | some ']' => drop
  | some _ => fault .malformed
  | none => fault .truncated

/-- The next key of an object, if there is one.  `key` reads a string after its opening quote. -/
def readKey? {κ : Type} (key : Read κ) (first : Bool) : Read (Option κ) := do
  match ← peek with
  | none => fault .truncated
  | some '\x7d' => return none
  | some c =>
      if first then
        if c ≠ '"' then
          fault .malformed
        else
          drop
          return some (← key)
      else if c ≠ ',' then
        fault .malformed
      else
        drop
        match ← peek with
        | none => fault .truncated
        | some '"' => drop; return some (← key)
        | some _ => fault .malformed

/-- The colon after a key. -/
def readColon : Read Unit := do
  match ← peek with
  | some ':' => drop
  | some _ => fault .malformed
  | none => fault .truncated

/-- The members of an object up to its closing brace.  `member` reads the colon and the value of a
key and adds them to what was read before. -/
def readMembers {κ σ : Type} (key : Read κ) (member : κ → σ → Read σ) : Nat → Bool → σ → Read σ
  | 0, _, _ => fault .malformed
  | fuel + 1, first, state => do
      match ← readKey? key first with
      | none => return state
      | some name => readMembers key member fuel false (← member name state)

/-- The closing brace of an object. -/
def endObject : Read Unit := do
  match ← peek with
  | some '\x7d' => drop
  | some _ => fault .malformed
  | none => fault .truncated

/-- A part of the text inside one more array or object. -/
def inside {α : Type} (room : Nat) (body : Nat → Read α) : Read α :=
  match room with
  | 0 => fault .malformed
  | room + 1 => do
      drop
      body room

/-- A list of values. -/
def readList {α : Type} (room : Nat) (item : Nat → Read α) : Read (List α) := do
  match ← peek with
  | none => fault .truncated
  | some '[' =>
      inside room fun room => do
        let items ← readItems (item room) ((← get).length + 1) true
        endArray
        return items
  | some _ => refuse "a sequence"

/-- A record, written as an object or as an array of its fields in order. -/
def readRecord {α : Type} (expected : String) (room : Nat) (fromArray fromObject : Nat → Read α) :
    Read α := do
  match ← peek with
  | none => fault .truncated
  | some '[' =>
      inside room fun room => do
        let value ← fromArray room
        endArray
        return value
  | some '\x7b' =>
      inside room fun room => do
        let value ← fromObject room
        endObject
        return value
  | some _ => refuse expected

/-- The number of a field in words: one element, two elements. -/
def elementCount (count : Nat) : String :=
  toString count ++ (if count = 1 then " element" else " elements")

/-- A field of a record that is written as an array: field number `index` of `count`. -/
def readElement {α : Type} (expected : String) (index count : Nat) (item : Read α) : Read α := do
  match ← readItem? (index = 0) item with
  | some value => return value
  | none =>
      fault (.mismatch ("invalid length " ++ toString index ++ ", expected " ++ expected ++
        " with " ++ elementCount count))

/-- A field that may be left out of a record that is written as an array. -/
def readElementOr {α : Type} (default : α) (index : Nat) (item : Read α) : Read α := do
  return (← readItem? (index = 0) item).getD default

/-- The value of a field that was met in an object, unless it was met before. -/
def readField {α : Type} (name : String) (before : Option α) (item : Read α) :
    Read (Option α) := do
  if before.isSome then
    fault (.mismatch ("duplicate field `" ++ name ++ "`"))
  else
    readColon
    return some (← item)

/-- The value of a field after the whole object was read. -/
def requireField {α : Type} (name : String) : Option α → Read α
  | some value => return value
  | none => fault (.mismatch ("missing field `" ++ name ++ "`"))

/-- Alternatives as they are listed in a message. -/
def alternatives (names : List String) : String :=
  let quoted := names.map fun name => "`" ++ name ++ "`"
  match quoted with
  | [single] => single
  | [first, second] => first ++ " or " ++ second
  | _ => "one of " ++ ", ".intercalate quoted

/-- Refuses the name of a case that does not exist. -/
def unknownCase {α : Type} (name : String) (names : List String) : Read α :=
  fault (.mismatch
    ("unknown variant `" ++ name ++ "`, expected " ++ alternatives names))

/-- A value that is one of several cases.  A case without data is written as its name, a case with
data as an object with its name as the only key. -/
def readCase {α : Type} (room : Nat) (plain : String → Read α) (tagged : Nat → String → Read α) :
    Read α := do
  match ← peek with
  | none => fault .truncated
  | some '"' =>
      drop
      plain (← readString)
  | some '\x7b' =>
      inside room fun room => do
        let name ←
          match ← peek with
          | some '"' => drop; readString
          | _ => refuse "variant identifier"
        let value ← tagged room name
        endObject
        return value
  | some _ => fault .malformed

/-- The data of a case: a colon and a value. -/
def caseData {α : Type} (item : Read α) : Read α := do
  readColon
  item

/-- The data of a case that has none. -/
def noData {α : Type} (value : α) : Read α := do
  readColon
  match ← peek with
  | some 'n' => drop; readWord "ull".toList; return value
  | _ => refuse "unit"

/-- Refuses the bare name of a case that needs data. -/
def needsData {α : Type} (expected : String) : Read α :=
  fault (.mismatch ("invalid type: unit variant, expected " ++ expected))

/-- The characters of a string that nothing asks for, after its opening quote and up to its closing
one.  Escapes by code point need four digits but may be of any value. -/
def skipChars : Nat → Read Unit
  | 0 => fault .truncated
  | fuel + 1 => do
      match ← takeChar with
      | '"' => return ()
      | '\\' =>
          match ← takeChar with
          | '"' | '\\' | '/' | 'b' | 'f' | 'n' | 'r' | 't' => skipChars fuel
          | 'u' =>
              let _ ← readHexFour
              skipChars fuel
          | _ => fault .malformed
      | c =>
          if c < ' ' then
            fault .malformed
          else
            skipChars fuel

/-- A string that nothing asks for, after its opening quote. -/
def skipString : Read Unit := do
  skipChars ((← get).length + 1)

/-- Digits that have to be there. -/
def skipDigits : Read Unit := do
  if (← takeDigits).isEmpty then
    fault .malformed

/-- The exponent of a number that nothing asks for, if there is one. -/
def skipExponent : Read Unit := do
  match ← next? with
  | some 'e' | some 'E' =>
      drop
      match ← next? with
      | some '+' | some '-' => drop; skipDigits
      | _ => skipDigits
  | _ => return ()

/-- A number that nothing asks for, without its sign. -/
def skipNumber : Read Unit := do
  let first ← next?
  let digits ← takeDigits
  if digits.isEmpty ∨ (first = some '0' ∧ 1 < digits.length) then
    fault .malformed
  else
    match ← next? with
    | some '.' =>
        drop
        skipDigits
        skipExponent
    | _ => skipExponent

/-- A value that nothing asks for. -/
def skipValue : Nat → Read Unit
  | 0 => fault .malformed
  | fuel + 1 => do
      match ← peek with
      | none => fault .truncated
      | some 'n' => drop; readWord "ull".toList
      | some 't' => drop; readWord "rue".toList
      | some 'f' => drop; readWord "alse".toList
      | some '-' => drop; skipNumber
      | some '"' => drop; skipString
      | some '[' =>
          drop
          let _ ← readItems (skipValue fuel) ((← get).length + 1) true
          endArray
      | some '\x7b' =>
          drop
          readMembers skipString (fun () () => do readColon; skipValue fuel)
            ((← get).length + 1) true ()
          endObject
      | some c =>
          if c.isDigit then
            skipNumber
          else
            fault .malformed

/-- The value of a field that nothing asks for. -/
def skipField : Read Unit := do
  readColon
  skipValue ((← get).length + 1)

/-- How many arrays and objects may be open at once. -/
def maxRoom : Nat := 127

/-- Reads a whole text, which holds one value and nothing else. -/
def readWhole {α : Type} (item : Nat → Read α) (text : String) : Except Fault α := do
  let (value, rest) ← (item maxRoom).run text.toList
  if (rest.dropWhile isSpace).isEmpty then .ok value else .error .malformed

end PathCover.Json
