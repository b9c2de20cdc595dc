import TuningBridge.Request
import TuningBridge.Reset
import TuningBridge.SafetyHash
import TuningBridge.Volume

/-!
# Commands

Everything that clients ask of the owner of the chip.  A command is carried out as a whole; writes
and safeloads are not answered, a failed read is answered with zeros, and every other failure is
returned.
-/

namespace TuningBridge

/-- What a client asks of the owner of the chip. -/
inductive Command
  | write (address : UInt16) (data : Bytes)
  | safeload (address : UInt16) (data : Bytes)
  | read (address : UInt16) (length : Nat)
  | setParameter (address : UInt16) (value : Parameter)
  | getParameter (address : UInt16) (kind : ParameterKind)
  | setVolume (level : Binary64) (address : UInt16) (relative : Bool)
  | softReset
  | hardReset (milliseconds : Nat)
  | checkHash (cell : Option HashCell)
  deriving DecidableEq, Repr

/-- What a command is answered with. -/
inductive Answer
  /-- The command is done. -/
  | done
  | data (bytes : Bytes)
  | parameter (value : Parameter)
  | level (value : Binary64)
  | verdict (matched : Bool)
  deriving DecidableEq, Repr

namespace Command

/-- The command of a request. -/
def ofRequest : Request → Command
  | .write address data => write address data
  | .safeload address data => safeload address data
  | .read address length => read address length

/-- Whether a client goes on as soon as the command is queued. -/
def isUnanswered : Command → Bool
  | write .. | safeload .. => true
  | _ => false

/-- Carry out a command. -/
def run : Command → ChipM Answer
  | write address data => do
    ChipM.write address data
    return .done
  | safeload address data => do
    try Safeload.run address data
    catch error => ChipM.note [.safeloadFailed address error]
    return .done
  | read address length => do
    try
      return .data (← ChipM.read address length)
    catch error =>
      ChipM.note [.readFailed length address error]
      return .data (Bytes.zeros length)
  | setParameter address value => do
    ChipM.setParameter address value
    return .done
  | getParameter address kind => return .parameter (← ChipM.getParameter address kind)
  | setVolume level address relative => return .level (← ChipM.setVolume level address relative)
  | softReset => do
    ChipM.softReset
    return .done
  | hardReset milliseconds => do
    ChipM.hardReset milliseconds
    return .done
  | checkHash cell => return .verdict (← ChipM.checkHash cell)

end Command

end TuningBridge
