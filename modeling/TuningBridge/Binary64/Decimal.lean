import TuningBridge.Binary64

/-!
# Decimal text of doubles

`Binary64.text` writes the fewest decimal digits that read back as the same double, always
positional; `Binary64.textFixed` writes the exact value rounded to a number of places, a half going
to the even neighbour.
-/

namespace TuningBridge

/-- A positive decimal numeral `digits * 10 ^ exponent`. -/
structure Decimal where
  /-- The digits, read as one number. -/
  digits : Nat
  /-- The power of ten that the last digit counts. -/
  exponent : Int
  deriving DecidableEq, Repr

namespace Decimal

/-- The quotient rounded to the nearest integer, a half going to the even neighbour. -/
def roundDiv (numerator denominator : Nat) : Nat :=
  let quotient := numerator / denominator
  let remainder := numerator % denominator
  if 2 * remainder < denominator then quotient
  else if denominator < 2 * remainder then quotient + 1
  else if quotient % 2 = 0 then quotient
  else quotient + 1

/-- The count of decimal places until the first digit of a fraction `numerator / denominator` below
one has moved in front of the point, looked for in at most `fuel` places. -/
def leadingPlaces (denominator : Nat) : (fuel numerator : Nat) → Nat
  | 0, _ => 0
  | fuel + 1, numerator =>
    if denominator ≤ numerator then 0 else leadingPlaces denominator fuel (numerator * 10) + 1

/-- The power of ten just above `numerator / denominator`. -/
def magnitude (numerator denominator : Nat) : Int :=
  if denominator ≤ numerator then (toString (numerator / denominator)).length
  else 1 - (leadingPlaces denominator 400 numerator : Int)

/-- The numeral without zeros at the end of its fraction. -/
def trim : (fuel : Nat) → Decimal → Decimal
  | 0, decimal => decimal
  | fuel + 1, decimal =>
    if decimal.digits % 10 = 0 ∧ decimal.exponent < 0 then
      trim fuel ⟨decimal.digits / 10, decimal.exponent + 1⟩
    else decimal

/-- The positional text: zeros fill up to the point, and a fraction follows only if there is one. -/
def text (decimal : Decimal) : String :=
  let digits := toString decimal.digits
  if 0 ≤ decimal.exponent then
    digits ++ String.ofList (List.replicate decimal.exponent.toNat '0')
  else
    let places := (-decimal.exponent).toNat
    let padded := List.replicate (places + 1 - digits.length) '0' ++ digits.toList
    let whole := padded.length - places
    String.ofList (padded.take whole) ++ "." ++ String.ofList (padded.drop whole)

end Decimal

namespace Binary64

/-- The doubles' unit as a denominator. -/
private def unit : Nat := 1 <<< unitExponent

/-- The interval of numbers that round to a positive double of `units` units, in quarters of a unit,
and whether its ends belong to it. -/
def roundingInterval (units : Nat) : Nat × Nat × Bool :=
  let excess := units.log2 - 52
  let step := 1 <<< excess
  let significand := units / step
  let below := if significand = leadingBit ∧ 0 < excess then step else 2 * step
  (4 * units - below, 4 * units + 2 * step, significand % 2 == 0)

/-- The numeral with the given count of digits that is nearest to a positive double among those that
read back as it, if there is one.  Of two that are equally near, it is the larger. -/
def decimalOfLength? (units : Nat) (magnitude : Int) (length : Nat) : Option Decimal :=
  let exponent := magnitude - length
  let up := Nat.pow 10 exponent.toNat
  let down := Nat.pow 10 (-exponent).toNat
  let (lower, upper, inclusive) := roundingInterval units
  let readsBack (digits : Nat) : Bool :=
    let position := 4 * digits * up * unit
    if inclusive then lower * down ≤ position && position ≤ upper * down
    else lower * down < position && position < upper * down
  let floor := units * down / (up * unit)
  let distance (digits : Nat) : Nat :=
    (Int.natAbs ((units * down : Nat) - (digits * up * unit : Nat)))
  match readsBack floor, readsBack (floor + 1) with
  | true, true =>
    some ⟨if distance (floor + 1) ≤ distance floor then floor + 1 else floor, exponent⟩
  | true, false => some ⟨floor, exponent⟩
  | false, true => some ⟨floor + 1, exponent⟩
  | false, false => none

/-- The shortest numeral that reads back as a positive double; seventeen digits always do. -/
def shortest (units : Nat) : Decimal :=
  let magnitude := Decimal.magnitude units unit
  let found := (List.range' 1 17).findSome? (decimalOfLength? units magnitude)
  Decimal.trim 20 (found.getD ⟨0, 0⟩)

/-- The sign as text. -/
private def sign (negative : Bool) : String := if negative then "-" else ""

/-- The shortest positional text that reads back as the double: no exponent, no point on whole
numbers, and the sign of a zero is kept. -/
def text (x : Binary64) : String :=
  match x.number with
  | .nan => "NaN"
  | .infinite negative => sign negative ++ "inf"
  | .finite negative units =>
    sign negative ++ (if units = 0 then "0" else (shortest units).text)

/-- The shortest positional text with a fraction also on whole numbers. -/
def textWithPoint (x : Binary64) : String :=
  let plain := x.text
  if x.isFinite && !plain.contains '.' then plain ++ ".0" else plain

/-- The exact value rounded to two decimal places, a half going to the even neighbour. -/
def textFixed (x : Binary64) : String :=
  match x.number with
  | .nan => "NaN"
  | .infinite negative => sign negative ++ "inf"
  | .finite negative units =>
    let hundredths := Decimal.roundDiv (units * 100) unit
    let places := toString (hundredths % 100)
    sign negative ++ toString (hundredths / 100) ++ "."
      ++ (if places.length = 1 then "0" ++ places else places)

end Binary64

end TuningBridge
