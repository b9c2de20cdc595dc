/-!
# Binary floating-point numbers

A `Binary64` holds the 64 bits of a double.  Its exact reading `Binary64.number` is not a number, an
infinity, or a signed count of units of `2 ^ -1074`: every finite double is a whole number of these
units, so comparisons and fixed-point conversions are integer arithmetic.
-/

namespace TuningBridge

/-- A double, held as its 64 bits. -/
structure Binary64 where
  /-- Sign, biased exponent and fraction, most significant first. -/
  bits : UInt64
  deriving DecidableEq, Repr, Inhabited

/-- The exact reading of a double. -/
inductive Number
  /-- Not a number. -/
  | nan
  /-- An infinity of the given sign. -/
  | infinite (negative : Bool)
  /-- A finite value: `units` times `2 ^ -1074`, with a sign that zero keeps. -/
  | finite (negative : Bool) (units : Nat)
  deriving DecidableEq, Repr

namespace Number

/-- The position of a number among integers, counted in units of `2 ^ -1074`; an infinity lies
beyond every finite double, and what is not a number has no position. -/
def rank? : Number → Option Int
  | nan => none
  | infinite negative =>
    let beyond : Nat := 1 <<< 2098
    some (if negative then -(beyond : Int) else beyond)
  | finite negative units => some (if negative then -(units : Int) else units)

end Number

namespace Binary64

/-- The exponent of the unit: every finite double is a multiple of `2 ^ -unitExponent`. -/
def unitExponent : Nat := 1074

/-- The weight of the leading bit, which is one more than the largest fraction. -/
def leadingBit : Nat := 0x10000000000000

/-- The weight of the sign bit. -/
def signBit : Nat := 0x8000000000000000

/-- The sign bit. -/
def negative (x : Binary64) : Bool := signBit ≤ x.bits.toNat

/-- The biased exponent. -/
def exponent (x : Binary64) : Nat := x.bits.toNat / leadingBit % 2048

/-- The fraction below the leading bit. -/
def fraction (x : Binary64) : Nat := x.bits.toNat % leadingBit

/-- The exact reading of a double. -/
def number (x : Binary64) : Number :=
  if x.exponent = 2047 then
    if x.fraction = 0 then .infinite x.negative else .nan
  else if x.exponent = 0 then
    .finite x.negative x.fraction
  else
    .finite x.negative ((leadingBit + x.fraction) <<< (x.exponent - 1))

/-- The double of a sign and a count of units; digits below the 53 leading bits are cut off. -/
def ofUnits (negative : Bool) (units : Nat) : Binary64 :=
  let excess := units.log2 - 52
  ⟨UInt64.ofNat ((if negative then signBit else 0) + excess * leadingBit + units >>> excess)⟩

/-- The double of `value / 2 ^ fractionalBits`. -/
def ofScaled (value : Int) (fractionalBits : Nat) : Binary64 :=
  ofUnits (value < 0) (value.natAbs <<< (unitExponent - fractionalBits))

/-- Positive zero. -/
def zero : Binary64 := ⟨0⟩

/-- One. -/
def one : Binary64 := ⟨0x3FF0000000000000⟩

/-- Negative infinity. -/
def negativeInfinity : Binary64 := ⟨0xFFF0000000000000⟩

/-- Whether the double is not a number. -/
def isNaN (x : Binary64) : Bool := x.number == .nan

/-- Whether the double is a zero of either sign. -/
def isZero (x : Binary64) : Bool :=
  match x.number with
  | .finite _ units => units == 0
  | _ => false

/-- Whether the double is neither an infinity nor not a number. -/
def isFinite (x : Binary64) : Bool :=
  match x.number with
  | .finite _ _ => true
  | _ => false

/-- The order of doubles: exact for finite ones, with infinities at the ends; nothing is below or
above what is not a number. -/
def lt (x y : Binary64) : Bool :=
  match x.number.rank?, y.number.rank? with
  | some a, some b => a < b
  | _, _ => false

/-- The value moved into an interval: the upper end is compared first, and what is not a number
stays. -/
def clamp (value lower upper : Binary64) : Binary64 :=
  if upper.lt value then upper
  else if value.lt lower then lower
  else value

/-- The double as a machine number. -/
def toFloat (x : Binary64) : Float := Float.ofBits x.bits

/-- The bits of a machine number. -/
def ofFloat (x : Float) : Binary64 := ⟨x.toBits⟩

/-- The sum, rounded to nearest. -/
def add (x y : Binary64) : Binary64 := ofFloat (x.toFloat + y.toFloat)

end Binary64

end TuningBridge
