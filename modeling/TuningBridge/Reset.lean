import TuningBridge.Chip

/-!
# Resets

A soft reset toggles the reset register of the chip, if it has one.  A hard reset pulses the reset
line, if there is one, and then resets softly.
-/

namespace TuningBridge.ChipM

/-- The reset register of `adau14xx`. -/
def resetRegister : UInt16 := 0xF890

/-- Reset the chip through its reset register. -/
def softReset : ChipM Unit := do
  match (← get).family with
  | .adau14xx =>
    note [.softReset]
    write resetRegister (Bytes.ofUInt16 0)
    write resetRegister (Bytes.ofUInt16 1)
  | .adau1x0x => note [.softResetUnavailable]

/-- Do something with the reset line. -/
def drive (line : ResetLine) (action : LineAction) : ChipM ResetLine := do
  let after := { line with actions := line.actions.push action }
  modify fun chip => { chip with resetLine := some after }
  return after

/-- Hold the reset line high for a time, then release it. -/
def pulse (line : ResetLine) (milliseconds : Nat) : ChipM Unit := do
  unless line.goesHigh do throw (.bus .resetLine)
  let line ← drive line .high
  let line ← drive line (.hold milliseconds)
  unless line.goesLow do throw (.bus .resetLine)
  discard (drive line .low)

/-- Reset the chip through its reset line, then through its reset register. -/
def hardReset (milliseconds : Nat) : ChipM Unit := do
  match (← get).resetLine with
  | some line =>
    note [.hardReset]
    pulse line milliseconds
  | none => note [.resetLineMissing]
  softReset

end TuningBridge.ChipM
