import TuningBridge.Error

/-!
# Packet operations

The first byte of every packet says what the packet is.
-/

namespace TuningBridge

/-- What a packet is. -/
inductive Operation
  /-- Data for a register. -/
  | write
  /-- A request for the contents of a register. -/
  | readRequest
  /-- The answer to a read request. -/
  | readResponse
  deriving DecidableEq, Repr

namespace Operation

/-- The first byte of a packet. -/
def code : Operation → UInt8
  | write => 0x09
  | readRequest => 0x0A
  | readResponse => 0x0B

/-- The operation of a first byte. -/
def ofCode? (code : UInt8) : Option Operation :=
  if code = 0x09 then some write
  else if code = 0x0A then some readRequest
  else if code = 0x0B then some readResponse
  else none

/-- The operation of a first byte, or the error that names an unknown byte. -/
def ofCode (code : UInt8) : Except Error Operation :=
  match ofCode? code with
  | some operation => .ok operation
  | none => .error (.unknownOperation code)

/-- The byte of an operation stands for that operation. -/
theorem ofCode?_code (operation : Operation) : ofCode? operation.code = some operation := by
  cases operation <;> rfl

end Operation

end TuningBridge
