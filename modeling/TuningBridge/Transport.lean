import TuningBridge.Chunk
import TuningBridge.Journal
import TuningBridge.RegisterMap
import TuningBridge.Wire

/-!
# Register transports

Reads and writes of registers, over SPI or I2C or on a register bank in memory.  A bus write goes
out in one frame per chunk and stops at the first frame that is not transferred; the failure is an
event and not an error.
-/

namespace TuningBridge

/-- An access to a register bank. -/
inductive BankAccess
  | write (address : UInt16) (data : Bytes)
  | read (address : UInt16) (length : Nat)
  deriving DecidableEq, Repr

/-- Registers in memory that stand in for a chip. -/
structure Bank where
  registers : RegisterMap := .empty
  /-- The accesses so far, unless recording is off. -/
  accesses : Array BankAccess := #[]
  /-- Whether accesses are recorded. -/
  recording : Bool := true
  /-- Whether reads fail. -/
  failsReads : Bool := false

namespace Bank

/-- Keep an access, if recording is on. -/
def record (bank : Bank) (access : BankAccess) : Bank :=
  if bank.recording then { bank with accesses := bank.accesses.push access } else bank

/-- Put data into registers without recording an access. -/
def preload (bank : Bank) (address : UInt16) (data : Bytes) : Bank :=
  { bank with registers := bank.registers.store address data }

/-- Write data at an address. -/
def write (bank : Bank) (address : UInt16) (data : Bytes) : Bank :=
  (bank.preload address data).record (.write address data)

/-- Read data from an address on; a failing read is recorded too. -/
def read (bank : Bank) (address : UInt16) (length : Nat) : Except Error Bytes × Bank :=
  let after := bank.record (.read address length)
  if bank.failsReads then (.error (.bus (.bankRead address)), after)
  else (.ok (bank.registers.load address length), after)

/-- Switch recording; switching it off forgets the accesses so far. -/
def setRecording (bank : Bank) (recording : Bool) : Bank :=
  { bank with recording, accesses := if recording then bank.accesses else #[] }

/-- Forget the accesses so far. -/
def forget (bank : Bank) : Bank := { bank with accesses := #[] }

end Bank

/-- The kind of bus that a chip is attached to. -/
inductive Port
  | spi
  | i2c (device : UInt8)
  deriving DecidableEq, Repr

namespace Port

/-- The bytes in front of the payload of a write frame. -/
def header : Port → UInt16 → Bytes
  | spi, address => 0 :: Bytes.ofUInt16 address
  | i2c _, address => Bytes.ofUInt16 address

/-- The number of bytes in front of the payload. -/
def headerLength : Port → Nat
  | spi => 3
  | i2c _ => 2

/-- The most bytes that a frame has unless told otherwise. -/
def defaultFrameBytes : Port → Nat
  | spi => 4096
  | i2c _ => 1024

/-- The frame of a chunk. -/
def frame (port : Port) (chunk : Chunk) : Bytes := port.header chunk.address ++ chunk.payload

/-- The transaction that sends a frame. -/
def sending : Port → Bytes → Transaction
  | spi, frame => .spiWrite frame
  | i2c device, frame => .i2cWrite device frame

/-- The event before a frame is sent. -/
def sendingEvent : Port → Bytes → Event
  | spi, frame => .spiSending frame
  | i2c device, frame => .i2cSending device frame

/-- The event of a write that stopped. -/
def writeFailure : Port → (chunk : UInt16) → (applied total : Nat) → (address : UInt16) → Event
  | spi, chunk, applied, total, address => .spiWriteFailed chunk applied total address
  | i2c device, chunk, applied, total, address => .i2cWriteFailed device chunk applied total address

/-- The transaction that reads a register. -/
def reading : Port → (address : UInt16) → (length : Nat) → Transaction
  | spi, address, length => .spiExchange (1 :: Bytes.ofUInt16 address ++ Bytes.zeros length)
  | i2c device, address, length => .i2cWriteRead device (Bytes.ofUInt16 address) length

/-- The event after a read. -/
def receivedEvent : Port → UInt16 → Bytes → Event
  | spi, address, data => .spiReceived address data
  | i2c _, address, data => .i2cReceived address data

/-- The event of a read that was not transferred. -/
def readFailure : Port → (address : UInt16) → (length : Nat) → Event
  | spi, address, length => .spiReadFailed address length
  | i2c device, address, length => .i2cReadFailed device address length

/-- The cause that a failed read returns. -/
def readFault : Port → UInt16 → BusFault
  | spi, address => .spiRead address
  | i2c _, address => .i2cRead address

end Port

/-- The way to the registers of a chip. -/
inductive Transport
  /-- Registers in memory. -/
  | memory (bank : Bank)
  /-- A bus, and how many words go into one frame. -/
  | bus (port : Port) (wordsPerFrame : Nat) (wire : Wire)

/-- Something that was done on the way to the registers of a chip. -/
inductive BusOperation
  | access (access : BankAccess)
  | transfer (transfer : Transfer)
  deriving DecidableEq, Repr

namespace Transport

/-- What was done on the way to the registers so far: the accesses that a register bank has
recorded, or the transactions on the wires. -/
def operations : Transport → List BusOperation
  | memory bank => bank.accesses.toList.map .access
  | bus _ _ wire => wire.traffic.toList.map .transfer

/-- A bus transport for frames of at most the given number of bytes. -/
def onBus (port : Port) (frameBytes : Nat) (wire : Wire) : Transport :=
  .bus port (Chunk.wordsPerFrame frameBytes port.headerLength) wire

/-- The events of a bus write of which the first `done` frames were transferred. -/
def writeEvents (port : Port) (address : UInt16) (total : Nat) (chunks : List Chunk) (done : Nat) :
    List Event :=
  let attempted := (chunks.take (done + 1)).map fun chunk => port.sendingEvent (port.frame chunk)
  match chunks[done]? with
  | none => attempted
  | some failed =>
    let applied := ((chunks.take done).flatMap (·.payload)).length
    attempted ++ [port.writeFailure failed.address applied total address]

/-- Write data at an address. -/
def write (transport : Transport) (address : UInt16) (data : Bytes) : List Event × Transport :=
  match transport with
  | memory bank => ([.bankWritten address data], .memory (bank.write address data))
  | bus port wordsPerFrame wire =>
    let chunks := Chunk.ofWrite address data wordsPerFrame
    let frames := chunks.map fun chunk => port.sending (port.frame chunk)
    let (done, wire) := wire.performWhile 0 frames
    (writeEvents port address data.length chunks done, .bus port wordsPerFrame wire)

/-- Read data from an address on. -/
def read (transport : Transport) (address : UInt16) (length : Nat) :
    Except Error Bytes × List Event × Transport :=
  match transport with
  | memory bank =>
    let (result, bank) := bank.read address length
    (result, [], .memory bank)
  | bus port wordsPerFrame wire =>
    match wire.perform (port.reading address length) with
    | (true, wire) =>
      let (data, wire) := wire.answer length
      (.ok data, [port.receivedEvent address data], .bus port wordsPerFrame wire)
    | (false, wire) =>
      (.error (.bus (port.readFault address)), [port.readFailure address length],
        .bus port wordsPerFrame wire)

end Transport

end TuningBridge
