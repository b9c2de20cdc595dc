import TuningBridge.Error
import TuningBridge.Family

/-!
# The journal

What happens while the chip is served, as data: every event has a severity, a source and a wording.
-/

namespace TuningBridge

/-- How grave an event is, gravest first. -/
inductive Severity
  | error
  | warning
  | info
  | debug
  deriving DecidableEq, Repr

/-- The written name of a severity. -/
def Severity.text : Severity → String
  | error => "ERROR"
  | warning => "WARN"
  | info => "INFO"
  | debug => "DEBUG"

/-- The rank of a severity, zero for the gravest. -/
def Severity.rank : Severity → Nat
  | error => 0
  | warning => 1
  | info => 2
  | debug => 3

/-- Something that happened. -/
inductive Event
  /-- Data went into the register bank. -/
  | bankWritten (address : UInt16) (data : Bytes)
  /-- Data came in over SPI. -/
  | spiReceived (address : UInt16) (data : Bytes)
  /-- A frame is about to go out over SPI. -/
  | spiSending (frame : Bytes)
  /-- A read over SPI was not transferred. -/
  | spiReadFailed (address : UInt16) (length : Nat)
  /-- A write over SPI stopped at the frame for `chunk`, after `applied` of `total` bytes. -/
  | spiWriteFailed (chunk : UInt16) (applied total : Nat) (address : UInt16)
  /-- Data came in over I2C. -/
  | i2cReceived (address : UInt16) (data : Bytes)
  /-- A frame is about to go out to an I2C device. -/
  | i2cSending (device : UInt8) (frame : Bytes)
  /-- A read over I2C was not transferred. -/
  | i2cReadFailed (device : UInt8) (address : UInt16) (length : Nat)
  /-- A write over I2C stopped at the frame for `chunk`, after `applied` of `total` bytes. -/
  | i2cWriteFailed (device : UInt8) (chunk : UInt16) (applied total : Nat) (address : UInt16)
  /-- The chip is reset through its reset register. -/
  | softReset
  /-- The chip has no reset register. -/
  | softResetUnavailable
  /-- The chip is reset through its reset line. -/
  | hardReset
  /-- The chip has no reset line. -/
  | resetLineMissing
  /-- A requested level was not a number. -/
  | levelNotANumber (kept : Binary64)
  /-- A requested level has no finite gain. -/
  | levelTooLarge
  /-- A level was set. -/
  | levelSet (level : Binary64)
  /-- No hash register is known. -/
  | hashCellMissing
  /-- The hash register was read. -/
  | hashRead (address : UInt16)
  /-- The hash is the expected one. -/
  | hashMatches
  /-- The hash is not the expected one. -/
  | hashDiffers (expected actual : UInt32)
  /-- The worker took over the chip. -/
  | workerStarted (family : Family)
  /-- The worker has no more clients. -/
  | workerStopped
  /-- A queued safeload failed. -/
  | safeloadFailed (address : UInt16) (error : Error)
  /-- A queued read failed and was answered with zeros. -/
  | readFailed (length : Nat) (address : UInt16) (error : Error)
  /-- The check at startup begins. -/
  | startupCheck
  /-- One attempt of the check at startup failed. -/
  | startupAttemptFailed (attempt : Nat) (error : Error)
  /-- The check at startup found no match. -/
  | startupCheckFailed
  /-- A complete header came in. -/
  | headerReceived (header : Bytes)
  /-- A request came in. -/
  | requestReceived
  /-- A read response came in, which nobody asked for. -/
  | responseIgnored
  /-- A read response is about to go out. -/
  | responseSending (response : Bytes)
  /-- The settings were read. -/
  | settingsLoaded (family : Family) (protocol : String)
  /-- The chip is simulated. -/
  | simulating
  /-- The service comes up without a matching hash. -/
  | locked
  /-- Connections are taken at an address. -/
  | listening (address : String)
  /-- A peer has connected. -/
  | connected (peer : String)
  /-- A peer has hung up. -/
  | disconnected (peer : String)
  /-- A connection is closed because its session failed. -/
  | closing (peer : String) (error : Error)
  /-- The service was told to end. -/
  | interrupted
  deriving DecidableEq, Repr

namespace Event

/-- The severity of an event. -/
def severity : Event → Severity
  | spiReadFailed .. | spiWriteFailed .. | i2cReadFailed .. | i2cWriteFailed ..
  | safeloadFailed .. | readFailed .. => .error
  | resetLineMissing | hashCellMissing | hashDiffers .. | startupAttemptFailed ..
  | startupCheckFailed | locked | closing .. => .warning
  | softReset | softResetUnavailable | hardReset | levelNotANumber .. | levelTooLarge
  | levelSet .. | hashRead .. | hashMatches | startupCheck | settingsLoaded .. | simulating
  | listening .. | connected .. | disconnected .. | interrupted => .info
  | _ => .debug

/-- Whether an event shows payload bytes, which are logged on demand only. -/
def showsPayload : Event → Bool
  | bankWritten .. | spiReceived .. | spiSending .. | i2cReceived .. | i2cSending ..
  | headerReceived .. | responseSending .. => true
  | _ => false

/-- The source that log lines name. -/
def source : Event → String
  | bankWritten .. => "sigmadsp::memory_transport"
  | spiReceived .. | spiSending .. | spiReadFailed .. | spiWriteFailed .. => "sigmadsp::spi"
  | i2cReceived .. | i2cSending .. | i2cReadFailed .. | i2cWriteFailed .. => "sigmadsp::i2c"
  | softReset => "sigmadsp::adau14xx"
  | softResetUnavailable => "sigmadsp::adau1x0x"
  | hardReset | resetLineMissing | levelNotANumber .. | levelTooLarge | levelSet ..
  | hashCellMissing | hashRead .. | hashMatches | hashDiffers .. => "sigmadsp::dsp"
  | workerStarted .. | workerStopped | safeloadFailed .. | readFailed .. | startupCheck
  | startupAttemptFailed .. | startupCheckFailed => "sigmadsp::backend"
  | headerReceived .. | requestReceived | responseIgnored | responseSending ..
  | listening .. | connected .. | disconnected .. | closing .. => "sigmadsp::server"
  | settingsLoaded .. | simulating | locked | interrupted => "sigmadsp_backend"

/-- The wording of an event. -/
def text : Event → String
  | bankWritten address data => s!"[memory write 0x{Hex.address address}] {Hex.dump data}"
  | spiReceived address data => s!"[SPI read 0x{Hex.address address}] {Hex.dump data}"
  | spiSending frame => s!"[SPI write] {Hex.dump frame}"
  | spiReadFailed address length =>
    s!"SPI failed to read {length} bytes from 0x{Hex.address address}: BusFault"
  | spiWriteFailed chunk applied total address =>
    s!"SPI failed to write frame to 0x{Hex.address chunk} with error: BusFault; " ++
      s!"{applied} of {total} bytes for 0x{Hex.address address} were applied"
  | i2cReceived address data => s!"[I2C read 0x{Hex.address address}] {Hex.dump data}"
  | i2cSending device frame => s!"[I2C write 0x{Hex.byte device}] {Hex.dump frame}"
  | i2cReadFailed device address length =>
    s!"I2C device 0x{Hex.byte device} failed to read {length} bytes from " ++
      s!"0x{Hex.address address}: BusFault"
  | i2cWriteFailed device chunk applied total address =>
    s!"I2C device 0x{Hex.byte device} failed to write frame to 0x{Hex.address chunk}: BusFault; " ++
      s!"{applied} of {total} bytes for 0x{Hex.address address} were applied"
  | softReset => "Soft-resetting the DSP"
  | softResetUnavailable => "Soft reset is not available on ADAU1x0x"
  | hardReset => "Hard-resetting the DSP"
  | resetLineMissing => "No hard-reset line is defined, not resetting"
  | levelNotANumber kept => s!"Volume value is NaN, keeping {kept.textFixed} dB"
  | levelTooLarge => "Volume adjustment was too large, ignoring"
  | levelSet level => s!"Set volume to {level.textFixed} dB"
  | hashCellMissing => "No safety hash cell is configured, configuration remains locked"
  | hashRead address => s!"Safety hash address: 0x{Hex.address address}"
  | hashMatches => "Safety check successful, configuration unlocked"
  | hashDiffers expected actual =>
    s!"Safety hash mismatch: expected {expected}, read {actual}; configuration remains locked"
  | workerStarted family => s!"DSP worker started for {family.name}"
  | workerStopped => "DSP worker stopped"
  | safeloadFailed address error =>
    s!"Safeload to 0x{Hex.address address} failed: {error.message}"
  | readFailed length address error =>
    s!"Read of {length} bytes from 0x{Hex.address address} failed, answering zeros: {error.message}"
  | startupCheck => "Run startup safety check"
  | startupAttemptFailed attempt error => s!"Safety check attempt {attempt} failed: {error.message}"
  | startupCheckFailed => "Startup safety check failed"
  | headerReceived header => s!"[SigmaStudio header] {Hex.dump header}"
  | requestReceived => "received request"
  | responseIgnored => "ignoring unsolicited read response"
  | responseSending response => s!"[SigmaStudio response] {Hex.dump response}"
  | settingsLoaded family protocol => s!"settings loaded family={family.name} protocol={protocol}"
  | simulating => "simulating the DSP in memory"
  | locked => "configuration is locked"
  | listening address => s!"SigmaStudio server listening addr={address}"
  | connected peer => s!"SigmaStudio connected peer={peer}"
  | disconnected peer => s!"SigmaStudio disconnected peer={peer}"
  | closing peer error => s!"closing SigmaStudio connection peer={peer} error={error.message}"
  | interrupted => "interrupted, shutting down"

/-- The severity and the wording of an event. -/
def line (event : Event) : String := s!"{event.severity.text} {event.text}"

/-- The severity, the source and the wording of an event, as the service prints it. -/
def sourceLine (event : Event) : String :=
  s!"{event.severity.text} {event.source}: {event.text}"

/-- Whether the service prints an event: its rank must not exceed the verbosity by more than one,
and payload bytes are printed on demand only. -/
def isPrinted (event : Event) (verbosity : Nat) (showsPayloads : Bool) : Bool :=
  event.severity.rank ≤ verbosity + 1 && (showsPayloads || !event.showsPayload)

end Event

end TuningBridge
