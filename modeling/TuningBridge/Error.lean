import TuningBridge.Binary64.Decimal
import TuningBridge.FieldName
import TuningBridge.FixedPoint
import TuningBridge.Hex

/-!
# Errors

The causes for which a packet, a register access or a session fails, and their wording.
-/

namespace TuningBridge

/-- Why a value does not go into a header field. -/
inductive FieldFault
  /-- A field wider than the widest word. -/
  | tooWide (size : Nat)
  /-- A number that needs more bits than the field has. -/
  | doesNotFit (value bits : Nat)
  /-- A byte string of another length than the field. -/
  | wrongLength (expected actual : Nat)
  /-- A number above the 16-bit register addresses. -/
  | notAnAddress (value : Nat)
  deriving DecidableEq, Repr

/-- What failed on the bus or on the reset line. -/
inductive BusFault
  /-- The register bank was told to fail its reads. -/
  | bankRead (address : UInt16)
  /-- A read over SPI was not transferred. -/
  | spiRead (address : UInt16)
  /-- A read over I2C was not transferred. -/
  | i2cRead (address : UInt16)
  /-- The reset pin could not be driven. -/
  | resetLine
  deriving DecidableEq, Repr

/-- Why a connection stops delivering or accepting bytes. -/
inductive LinkFault
  | unexpectedEof
  | connectionReset
  | connectionAborted
  | brokenPipe
  /-- The peer accepted no byte of a write. -/
  | writeZero
  /-- The address to listen on is taken. -/
  | addressInUse
  /-- Any other fault, by name. -/
  | other (name : String)
  deriving DecidableEq, Repr

/-- The cause of a failure. -/
inductive Error
  /-- The connection failed in a way that is no hang-up. -/
  | link (fault : LinkFault)
  | lengthMismatch (expected actual : Nat)
  /-- Two fields share a byte; the one that starts first is named first. -/
  | overlappingFields (first second : FieldName)
  | unknownOperation (code : UInt8)
  | invalidFieldValue (field : FieldName) (fault : FieldFault)
  | unknownField (field : FieldName)
  | safeloadCapacityExceeded (requested capacity : Nat)
  | fixedPointOverflow (value : Binary64) (format : FixedPoint)
  | bus (fault : BusFault)
  | connectionClosed
  | workerGone
  | payloadTooLarge (length limit : Nat)
  deriving DecidableEq, Repr

namespace LinkFault

/-- The name of a fault. -/
def name : LinkFault → String
  | unexpectedEof => "UnexpectedEof"
  | connectionReset => "ConnectionReset"
  | connectionAborted => "ConnectionAborted"
  | brokenPipe => "BrokenPipe"
  | writeZero => "WriteZero"
  | addressInUse => "AddrInUse"
  | other name => name

/-- The fault of a name. -/
def ofName (name : String) : LinkFault :=
  let known :=
    [unexpectedEof, connectionReset, connectionAborted, brokenPipe, writeZero, addressInUse]
  (known.find? (·.name == name)).getD (other name)

/-- Whether the fault means that the peer hung up or reset the connection. -/
def isHangUp : LinkFault → Bool
  | unexpectedEof | connectionReset | connectionAborted | brokenPipe => true
  | _ => false

/-- The error of a fault: a hang-up closes the connection, anything else fails it. -/
def toError (fault : LinkFault) : Error :=
  if fault.isHangUp then .connectionClosed else .link fault

end LinkFault

namespace FieldFault

/-- The wording of a fault. -/
def message : FieldFault → String
  | tooWide size => s!"size {size} exceeds 8 bytes"
  | doesNotFit value bits => s!"{value} does not fit into {bits} bits"
  | wrongLength expected actual => s!"expected {expected} bytes, got {actual}"
  | notAnAddress value => s!"0x{Hex.natural value} is not a 16-bit register address"

end FieldFault

namespace BusFault

/-- The wording of a fault. -/
def message : BusFault → String
  | bankRead address => s!"simulated read failure at 0x{Hex.address address}"
  | spiRead address => s!"SPI read from 0x{Hex.address address} failed: BusFault"
  | i2cRead address => s!"I2C read from 0x{Hex.address address} failed: BusFault"
  | resetLine => "reset line: PinFault"

end BusFault

namespace Error

/-- The wording of an error. -/
def message : Error → String
  | link fault => fault.name
  | lengthMismatch expected actual => s!"length mismatch: expected {expected} bytes, got {actual}"
  | overlappingFields first second => s!"fields '{first.text}' and '{second.text}' overlap"
  | unknownOperation code => s!"unknown operation key 0x{Hex.byte code}"
  | invalidFieldValue field fault => s!"invalid value for field '{field.text}': {fault.message}"
  | unknownField field => s!"header has no field '{field.text}'"
  | safeloadCapacityExceeded requested capacity =>
    s!"cannot safeload {requested} words, the chip stages at most {capacity}"
  | fixedPointOverflow value format =>
    s!"value {value.text} does not fit the {format.name} fixed-point format"
  | bus fault => s!"bus error: {fault.message}"
  | connectionClosed => "connection closed"
  | workerGone => "DSP worker is not running"
  | payloadTooLarge length limit =>
    s!"payload of {length} bytes exceeds the limit of {limit} bytes"

end Error

end TuningBridge
