import TuningBridge.Bytes

/-!
# Bus wires

What a bus master does on the wires, one transaction after the other.  The chip at the other end is
a plan: which transactions fail, and what it answers to reads.  Every transaction is kept with its
outcome.
-/

namespace TuningBridge

/-- What the master does in one transaction. -/
inductive Transaction
  /-- Send a frame over SPI. -/
  | spiWrite (frame : Bytes)
  /-- Send a frame over SPI and receive as many bytes in exchange. -/
  | spiExchange (frame : Bytes)
  /-- Send a frame to an I2C device. -/
  | i2cWrite (device : UInt8) (frame : Bytes)
  /-- Send a frame to an I2C device and read a number of bytes from it. -/
  | i2cWriteRead (device : UInt8) (frame : Bytes) (length : Nat)
  deriving DecidableEq, Repr

/-- A transaction and whether it was transferred. -/
structure Transfer where
  transaction : Transaction
  transferred : Bool
  deriving DecidableEq, Repr

/-- The wires of a bus: the plan of the chip and the transactions so far. -/
structure Wire where
  /-- The transactions that fail, counted from zero. -/
  fails : Nat → Bool := fun _ => false
  /-- The answers to the successful reads to come, one each; afterwards the chip answers zeros. -/
  replies : List Bytes := []
  /-- All transactions so far, failed ones too. -/
  traffic : Array Transfer := #[]

namespace Wire

/-- Carry out a transaction; the result is whether it was transferred. -/
def perform (wire : Wire) (transaction : Transaction) : Bool × Wire :=
  let transferred := !wire.fails wire.traffic.size
  (transferred, { wire with traffic := wire.traffic.push ⟨transaction, transferred⟩ })

/-- The chip's next answer, cut or padded with zeros to the length read. -/
def answer (wire : Wire) (length : Nat) : Bytes × Wire :=
  match wire.replies with
  | [] => (Bytes.zeros length, wire)
  | reply :: rest => (Bytes.fit length reply, { wire with replies := rest })

/-- Carry out transactions up to the first one that fails; the result is the number transferred. -/
def performWhile (wire : Wire) (done : Nat) : List Transaction → Nat × Wire
  | [] => (done, wire)
  | transaction :: rest =>
    match wire.perform transaction with
    | (true, next) => next.performWhile (done + 1) rest
    | (false, next) => (done, next)

end Wire

end TuningBridge
