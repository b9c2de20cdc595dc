import TuningBridge.Bytes

/-!
# Hexadecimal text

Addresses, operation codes and payload dumps are written in uppercase hexadecimal.
-/

namespace TuningBridge.Hex

/-- The uppercase digit of a value below sixteen. -/
def digit (value : Nat) : Char :=
  if value < 10 then Char.ofNat (48 + value) else Char.ofNat (55 + value)

/-- The hexadecimal numeral of a fixed width; digits above the width are dropped. -/
def digits : Nat → Nat → List Char
  | 0, _ => []
  | width + 1, value => digit ((value >>> (4 * width)) % 16) :: digits width value

/-- The hexadecimal numeral of a fixed width, as text. -/
def padded (width value : Nat) : String := String.ofList (digits width value)

/-- The shortest hexadecimal numeral of a number. -/
def natural (value : Nat) : String := padded (value.log2 / 4 + 1) value

/-- Two digits for a byte. -/
def byte (value : UInt8) : String := padded 2 value.toNat

/-- Four digits for a register address. -/
def address (value : UInt16) : String := padded 4 value.toNat

/-- Every byte of a byte string in two digits, with spaces between them. -/
def dump (bytes : Bytes) : String := " ".intercalate (bytes.map byte)

end TuningBridge.Hex
