import TuningBridge.Parameter

/-!
# Volume

A volume is a gain parameter between zero and one that is set and read in decibels.
-/

namespace TuningBridge.ChipM

/-- The level of the gain at an address. -/
def getLevel (address : UInt16) : ChipM Binary64 := do
  let gain ← getGain address
  return (← get).scale.ofLinear gain

/-- Set the level at an address, or shift it.  The gain is kept between zero and one.  The result is
the level read back; a request that stands for no gain leaves the register alone and returns the
level it has. -/
def setVolume (level : Binary64) (address : UInt16) (relative : Bool) : ChipM Binary64 := do
  let current ← getLevel address
  if level.isNaN then
    note [.levelNotANumber current]
    return current
  let scale := (← get).scale
  let gain := scale.toLinear (if relative then current.add level else level)
  if !gain.isFinite then
    note [.levelTooLarge]
    return current
  let kept := gain.clamp .zero .one
  match (← fixedPoint).encode? kept with
  | none => return current
  | some steps =>
    setWord address (FixedPoint.word steps)
    note [.levelSet (scale.ofLinear kept)]
    getLevel address

/-- Shift the level at an address. -/
def adjustVolume (adjustment : Binary64) (address : UInt16) : ChipM Binary64 :=
  setVolume adjustment address true

end TuningBridge.ChipM
