import TuningBridge.Parameter

/-!
# The safety hash

A register of the chip holds a hash of the loaded program.  It is compared with the value that the
settings expect, so that parameters are not written into another program.
-/

namespace TuningBridge

/-- The register of the hash and the value it is expected to hold. -/
structure HashCell where
  address : UInt16
  value : UInt32
  deriving DecidableEq, Repr

/-- Compare the hash register with the expected value; without a register nothing matches. -/
def ChipM.checkHash (cell : Option HashCell) : ChipM Bool := do
  match cell with
  | none =>
    note [.hashCellMissing]
    return false
  | some cell =>
    let actual ← readUInt32 cell.address
    note [.hashRead cell.address]
    if actual = cell.value then
      note [.hashMatches]
      return true
    else
      note [.hashDiffers cell.value actual]
      return false

end TuningBridge
