/-!
# Shortest decimals

The decimal with the fewest digits that a binary floating-point number is the nearest one to.  All
arithmetic is exact, on natural numbers.
-/

namespace PathCover

/-- A number `significand * 2 ^ exponent`, where a binary number is the nearest to all numbers
between the halfway points to its neighbours. -/
structure Binary where
  significand : Nat
  exponent : Int
  deriving DecidableEq

/-- A number `digits * 10 ^ exponent`. -/
structure Decimal where
  digits : Nat
  exponent : Int
  deriving DecidableEq

/-- The leading bit of a significand, which the bits of a double do not show. -/
def Binary.hidden : Nat := Nat.pow 2 52

/-- The magnitude that the bits of a finite double stand for. -/
def Binary.ofBits (bits : Nat) : Binary :=
  let fraction := bits % hidden
  let biased : Nat := bits / hidden % 2048
  if biased = 0 then ⟨fraction, -1074⟩ else ⟨hidden + fraction, Int.ofNat biased - 1075⟩

namespace Decimal

/-- `n * base ^ exponent` for a possibly negative exponent, as a numerator over a denominator. -/
def scaled (n : Nat) (base : Nat) (exponent : Int) : Nat × Nat :=
  (n * Nat.pow base exponent.toNat, Nat.pow base (-exponent).toNat)

/-- Whether one fraction is at most another. -/
def fractionLe (x y : Nat × Nat) : Bool := x.1 * y.2 ≤ y.1 * x.2

/-- Whether one fraction is less than another. -/
def fractionLt (x y : Nat × Nat) : Bool := x.1 * y.2 < y.1 * x.2

end Decimal

namespace Binary

open Decimal

/-- The value in quarters of the last place, and the halfway points to the neighbours on both
sides.  Below a power of two the numbers lie twice as close. -/
def quarters (number : Binary) : Nat × Nat × Nat :=
  let centre := 4 * number.significand
  let below := if number.significand = hidden ∧ -1074 < number.exponent then 1 else 2
  (centre - below, centre, centre + 2)

/-- Whether a decimal is read back as the number.  A halfway point goes to the number whose
significand is even. -/
def readsBack (number : Binary) (decimal : Decimal) : Bool :=
  let (low, _, high) := number.quarters
  let value := scaled decimal.digits 10 decimal.exponent
  let low := scaled low 2 (number.exponent - 2)
  let high := scaled high 2 (number.exponent - 2)
  if number.significand % 2 = 0 then fractionLe low value && fractionLe value high
  else fractionLt low value && fractionLt value high

/-- The decimal on the grid of multiples of `10 ^ exponent` that is nearest to the number from
below, and the next one. -/
def neighbours (number : Binary) (exponent : Int) : Decimal × Decimal :=
  let value := scaled number.significand 2 number.exponent
  let unit := scaled 1 10 exponent
  let digits := value.1 * unit.2 / (value.2 * unit.1)
  (⟨digits, exponent⟩, ⟨digits + 1, exponent⟩)

/-- Whether the number lies nearer to the lower of its two neighbours on a grid; in the middle the
even one counts as nearer. -/
def nearerBelow (number : Binary) (lower : Decimal) : Bool :=
  let value := scaled number.significand 2 number.exponent
  let middle := scaled (2 * lower.digits + 1) 10 lower.exponent
  let doubled := (2 * value.1, value.2)
  fractionLt doubled middle || (!fractionLt middle doubled && lower.digits % 2 = 0)

/-- The decimal on a grid that is read back as the number, the nearer one if two are. -/
def onGrid? (number : Binary) (exponent : Int) : Option Decimal :=
  let (lower, upper) := number.neighbours exponent
  match number.readsBack lower, number.readsBack upper with
  | true, true => some (if number.nearerBelow lower then lower else upper)
  | true, false => some lower
  | false, true => some upper
  | false, false => none

/-- The shortest decimal that is read back as a number that is not zero: the one on the coarsest
grid that has any. -/
def shortest (number : Binary) : Decimal :=
  match (List.range 700).findSome? fun (step : Nat) => number.onGrid? (310 - Int.ofNat step) with
  | some decimal => decimal
  | none => ⟨number.significand, 0⟩

end Binary

end PathCover
