import TuningBridge.Error

/-!
# Register words

The 16-bit and 32-bit words that registers hold, big-endian.
-/

namespace TuningBridge.Register

/-- The 16-bit word in exactly two bytes. -/
def word16 (data : Bytes) : Except Error UInt16 :=
  if data.length = 2 then .ok (UInt16.ofNat data.toNat) else .error (.lengthMismatch 2 data.length)

/-- The 32-bit word in exactly four bytes. -/
def word32 (data : Bytes) : Except Error UInt32 :=
  if data.length = 4 then .ok (UInt32.ofNat data.toNat) else .error (.lengthMismatch 4 data.length)

end TuningBridge.Register
