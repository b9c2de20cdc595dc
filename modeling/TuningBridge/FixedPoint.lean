import TuningBridge.Binary64

/-!
# Fixed-point parameters

A parameter register holds a signed number of steps of `2 ^ -fractionalBits`.  Encoding a double
cuts it toward zero, decoding is exact, and the most negative register value stands for no number.
-/

namespace TuningBridge

/-- The parameter formats of the supported chips. -/
inductive FixedPoint
  /-- 32-bit words: a sign, 7 integer bits and 24 fractional bits. -/
  | q8_24
  /-- 28-bit words: a sign, 4 integer bits and 23 fractional bits. -/
  | q5_23
  deriving DecidableEq, Repr

namespace FixedPoint

/-- The number of bits below the binary point. -/
def fractionalBits : FixedPoint → Nat
  | q8_24 => 24
  | q5_23 => 23

/-- The number of bits without the sign. -/
def magnitudeBits : FixedPoint → Nat
  | q8_24 => 31
  | q5_23 => 27

/-- The name of a format: integer bits, sign included, and fractional bits. -/
def name : FixedPoint → String
  | q8_24 => "8.24"
  | q5_23 => "5.23"

/-- One more than the largest magnitude. -/
def bound (format : FixedPoint) : Nat := 1 <<< format.magnitudeBits

/-- The steps of a double, cut toward zero; `none` if they need more than the magnitude bits. -/
def encode? (format : FixedPoint) (value : Binary64) : Option Int :=
  match value.number with
  | .finite negative units =>
    let steps := units >>> (Binary64.unitExponent - format.fractionalBits)
    if steps < format.bound then some (if negative then -(steps : Int) else steps)
    else none
  | _ => none

/-- The double of a number of steps; `none` if they need more than the magnitude bits. -/
def decode? (format : FixedPoint) (steps : Int) : Option Binary64 :=
  if steps.natAbs < format.bound then
    some (Binary64.ofScaled steps format.fractionalBits)
  else none

/-- The signed steps in the low bits of a register word; higher bits do not count. -/
def signExtend (format : FixedPoint) (word : UInt32) : Int :=
  let low := word.toNat % (2 * format.bound)
  if low < format.bound then low else (low : Int) - (2 * format.bound : Nat)

/-- The register word of a number of steps, in two's complement. -/
def word (steps : Int) : UInt32 := UInt32.ofNat (steps % 0x100000000).toNat

end FixedPoint

end TuningBridge
