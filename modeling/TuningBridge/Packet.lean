import TuningBridge.Header

/-!
# Packets

A packet is a header and a payload.  A header that declares a length accepts payloads of that length
only; one that declares none takes the length of its first payload.
-/

namespace TuningBridge

/-- A header and its payload, empty if there is none. -/
structure Packet where
  header : Header
  payload : Bytes
  deriving DecidableEq, Repr

namespace Packet

/-- A packet without payload. -/
def ofHeader (header : Header) : Packet := ⟨header, []⟩

/-- Replace the payload.  A declared length of zero is filled in from the payload, any other one has
to match; a refused payload leaves the packet as it was. -/
def setPayload (packet : Packet) (payload : Bytes) : Except Error Packet := do
  let declared ← packet.header.dataLength
  if declared = 0 then
    let header ← packet.header.set .dataLength (UInt64.ofNat payload.length)
    pure ⟨header, payload⟩
  else if declared = payload.length then
    pure { packet with payload }
  else
    throw (.lengthMismatch declared payload.length)

/-- A packet of a header and a payload. -/
def make (header : Header) (payload : Bytes) : Except Error Packet :=
  (ofHeader header).setPayload payload

/-- The bytes of a packet on the wire. -/
def bytes (packet : Packet) : Bytes := packet.header.bytes ++ packet.payload

end Packet

end TuningBridge
