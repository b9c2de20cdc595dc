import TuningBridge.Binary64

/-!
# Decibels

Volume is set in decibels and stored as a linear gain.  A `Decibel.Scale` is the pair of
conversions, so that what holds of volume control for any such pair can be said.
-/

namespace TuningBridge.Decibel

/-- Conversions between a level in decibels and a linear gain. -/
structure Scale where
  /-- The gain of a level. -/
  toLinear : Binary64 → Binary64
  /-- The level of a gain. -/
  ofLinear : Binary64 → Binary64

/-- The gain `10 ^ (level / 20)`. -/
def toLinear (level : Binary64) : Binary64 :=
  Binary64.ofFloat (Float.pow 10 (level.toFloat / 20))

/-- The level `20 * log₁₀ gain`; a gain of zero has the level negative infinity. -/
def ofLinear (gain : Binary64) : Binary64 :=
  if gain.isZero then Binary64.negativeInfinity
  else Binary64.ofFloat (20 * Float.log10 gain.toFloat)

/-- The logarithmic scale of field quantities. -/
def scale : Scale := ⟨toLinear, ofLinear⟩

end TuningBridge.Decibel
