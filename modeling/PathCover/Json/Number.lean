import PathCover.Decimal.Shortest

/-!
# JSON numbers

No value that is read here holds a number, but a number that stands in the place of something else
is named in the message.  So a number is read for its value: a whole number where it has no
fraction and fits 64 bits, and otherwise a double.
-/

namespace PathCover.Json

/-- What is wrong with a JSON text. -/
inductive Fault where
  /-- The text is no JSON. -/
  | malformed
  /-- The text ends too early. -/
  | truncated
  /-- The text is JSON, but holds something else than was asked for. -/
  | mismatch (message : String)
  deriving DecidableEq, Inhabited

/-- The class of a fault in answers. -/
def Fault.category : Fault → String
  | .malformed => "syntax"
  | .truncated => "eof"
  | .mismatch _ => "data"

/-- A step of reading a JSON text, whose state is what is left of the text. -/
abbrev Read := StateT (List Char) (Except Fault)

/-- Gives up with a fault. -/
def fault {α : Type} (reason : Fault) : Read α := fun _ => .error reason

/-- The next character, which stays in the text. -/
def next? : Read (Option Char) := fun text => .ok (text.head?, text)

/-- Drops the next character. -/
def drop : Read Unit := fun text => .ok ((), text.tail)

/-- Takes the digits in front of the text. -/
def takeDigits : Read (List Nat) := fun text =>
  .ok ((text.takeWhile Char.isDigit).map (·.toNat - '0'.toNat), text.dropWhile Char.isDigit)

/-- Appends digits to a number as long as it fits 64 bits; the second part of the result is how many
digits are left over. -/
def appendDigits (number : Nat) : List Nat → Nat × Nat
  | [] => (number, 0)
  | digit :: rest =>
      if number * 10 + digit < Nat.pow 2 64 then appendDigits (number * 10 + digit) rest
      else (number, rest.length + 1)

/-- The double `significand * 10 ^ exponent`, reached by steps of at most 308 powers of ten.  A
number that is too large for a double is no number. -/
def doubleOfParts (significand : Float) (exponent : Int) : Nat → Except Fault Float
  | 0 => .ok significand
  | fuel + 1 =>
      if exponent.natAbs ≤ 308 then
        let power := Float.ofScientific 1 false exponent.natAbs
        if exponent < 0 then .ok (significand / power)
        else if (significand * power).isInf then .error .malformed
        else .ok (significand * power)
      else if significand == 0 then .ok significand
      else if exponent < 0 then
        doubleOfParts (significand / Float.ofScientific 1 false 308) (exponent + 308) fuel
      else .error .malformed

/-- The magnitude of a JSON number. -/
inductive Magnitude where
  | whole (value : Nat)
  | double (value : Float)

/-- A double from its parts, as a step of reading. -/
def doubleMagnitude (significand : Nat) (exponent : Int) : Read Magnitude := fun text =>
  (doubleOfParts significand.toUInt64.toFloat exponent 4).map (.double ·, text)

/-- The exponent of a number, from its `e` on. -/
def readExponent (significand : Nat) (start : Int) : Read Magnitude := do
  drop
  let sign ← next?
  if sign = some '+' ∨ sign = some '-' then
    drop
  match ← next? with
  | none => fault .truncated
  | some c =>
      if !c.isDigit then
        fault .malformed
      else
        let exponent : Nat := (← takeDigits).foldl (fun value digit => value * 10 + digit) 0
        if exponent < Nat.pow 2 31 then
          doubleMagnitude significand
            (if sign = some '-' then start - Int.ofNat exponent else start + Int.ofNat exponent)
        else if significand ≠ 0 ∧ sign ≠ some '-' then
          fault .malformed
        else
          return .double 0

/-- The fraction of a number, from its point on. -/
def readFraction (significand : Nat) (start : Int) : Read Magnitude := do
  drop
  let digits ← takeDigits
  if digits.isEmpty then
    match ← next? with
    | none => fault .truncated
    | some _ => fault .malformed
  else
    let (significand, left) := appendDigits significand digits
    let exponent := start - Int.ofNat (digits.length - left)
    match ← next? with
    | some 'e' | some 'E' => readExponent significand exponent
    | _ => doubleMagnitude significand exponent

/-- The magnitude of a number.  A zero in front stands alone. -/
def readMagnitude : Read Magnitude := do
  match ← next? with
  | none => fault .truncated
  | some first =>
      let digits ← takeDigits
      if digits.isEmpty ∨ (first = '0' ∧ 1 < digits.length) then
        fault .malformed
      else
        let (significand, left) := appendDigits 0 digits
        match ← next? with
        | some '.' => readFraction significand (Int.ofNat left)
        | some 'e' | some 'E' => readExponent significand (Int.ofNat left)
        | _ =>
            if left = 0 then
              return .whole significand
            else
              doubleMagnitude significand (Int.ofNat left)

/-- A row of zeros. -/
def zeros (count : Nat) : String := String.ofList (List.replicate count '0')

/-- The written form of a decimal: positional where that needs at most sixteen places in front of
the point and at most four zeros after it, and with a signed exponent elsewhere. -/
def renderDecimal (decimal : Decimal) : String :=
  let digits := toString decimal.digits
  let point := Int.ofNat digits.length + decimal.exponent
  if 0 ≤ decimal.exponent ∧ point ≤ 16 then
    digits ++ zeros decimal.exponent.toNat ++ ".0"
  else if 0 < point ∧ point ≤ 16 then
    String.ofList (digits.toList.take point.toNat) ++ "." ++
      String.ofList (digits.toList.drop point.toNat)
  else if -5 < point ∧ point ≤ 0 then
    "0." ++ zeros (-point).toNat ++ digits
  else
    let fraction := digits.toList.tail
    String.ofList (digits.toList.take 1) ++
      (if fraction.isEmpty then "" else "." ++ String.ofList fraction) ++
      (if 0 < point then "e+" else "e") ++ toString (point - 1)

/-- The written form of a finite double that is not negative. -/
def renderDouble (value : Float) : String :=
  if value == 0 then "0.0"
  else renderDecimal (Binary.ofBits value.toBits.toNat).shortest

/-- How a number is named in a message.  A negative number that does not fit 64 bits with its sign,
and a negative zero, are doubles. -/
def describeNumber (negative : Bool) : Magnitude → String
  | .double value => "floating point `" ++ (if negative then "-" else "") ++ renderDouble value ++ "`"
  | .whole value =>
      if negative then
        if value = 0 ∨ Nat.pow 2 63 < value then
          "floating point `-" ++ renderDouble value.toUInt64.toFloat ++ "`"
        else "integer `-" ++ toString value ++ "`"
      else "integer `" ++ toString value ++ "`"

end PathCover.Json
