import TuningBridge.Decibel
import TuningBridge.Register
import TuningBridge.Transport

/-!
# The chip

A chip is reached through a register transport.  Every action on it is a `ChipM` computation: it may
fail, and what it did to the chip before it failed stays done.
-/

namespace TuningBridge

/-- What is done with the reset line. -/
inductive LineAction
  | high
  | low
  /-- Hold the level for a number of milliseconds. -/
  | hold (milliseconds : Nat)
  deriving DecidableEq, Repr

/-- The reset line of a chip. -/
structure ResetLine where
  /-- Whether the line can be driven high. -/
  goesHigh : Bool := true
  /-- Whether the line can be driven low. -/
  goesLow : Bool := true
  /-- What was done with the line so far. -/
  actions : Array LineAction := #[]
  deriving Repr

/-- A chip, the way to its registers, and what has happened so far. -/
structure Chip where
  family : Family
  transport : Transport
  /-- Whether parameters are written through safeload. -/
  useSafeload : Bool
  resetLine : Option ResetLine := none
  /-- The conversions that volume control uses. -/
  scale : Decibel.Scale := Decibel.scale
  /-- The events so far. -/
  journal : Array Event := #[]

/-- An action on a chip. -/
abbrev ChipM := EStateM Error Chip

namespace ChipM

/-- Put events into the journal. -/
def note (events : List Event) : ChipM Unit :=
  modify fun chip => { chip with journal := chip.journal ++ events }

/-- Write data to the registers from an address on; a bus failure is noted, not returned. -/
def write (address : UInt16) (data : Bytes) : ChipM Unit := do
  let (events, transport) := (← get).transport.write address data
  modify fun chip => { chip with transport }
  note events

/-- Read data from the registers from an address on. -/
def read (address : UInt16) (length : Nat) : ChipM Bytes := do
  let (result, events, transport) := (← get).transport.read address length
  modify fun chip => { chip with transport }
  note events
  match result with
  | .ok data => pure data
  | .error error => throw error

/-- Read one 16-bit word. -/
def readUInt16 (address : UInt16) : ChipM UInt16 := do
  MonadExcept.ofExcept (Register.word16 (← read address 2))

/-- Read one 32-bit word. -/
def readUInt32 (address : UInt16) : ChipM UInt32 := do
  MonadExcept.ofExcept (Register.word32 (← read address 4))

end ChipM

end TuningBridge
