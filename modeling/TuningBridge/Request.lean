import TuningBridge.Packet

/-!
# Requests

What a received packet asks of the chip.  Read responses are only ever sent, so they ask nothing.
-/

namespace TuningBridge

/-- What a packet asks of the chip. -/
inductive Request
  /-- Write data to a register. -/
  | write (address : UInt16) (data : Bytes)
  /-- Write data so that the chip takes all its words over at once. -/
  | safeload (address : UInt16) (data : Bytes)
  /-- Read bytes from a register on. -/
  | read (address : UInt16) (length : Nat)
  deriving DecidableEq, Repr

namespace Request

/-- The request of a packet, if it is one; a request needs a register address. -/
def ofPacket (packet : Packet) : Except Error (Option Request) := do
  let header := packet.header
  if header.isWrite || header.isReadRequest then
    let address ← header.address
    if header.isSafeload then
      pure (some (.safeload address packet.payload))
    else if header.isWrite then
      pure (some (.write address packet.payload))
    else
      pure (some (.read address (← header.dataLength)))
  else
    pure none

end Request

end TuningBridge
