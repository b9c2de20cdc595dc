import TuningBridge.ConfigurationError
import TuningBridge.IpAddress
import TuningBridge.SafetyHash

/-!
# Settings

Where the service listens, which chip it serves and over which bus, and which safety hash it
expects.  Settings are valid if the address can be listened on and every bus frame has room for a
word.
-/

namespace TuningBridge

/-- The bus that a chip is attached to. -/
inductive Protocol
  | spi
  | i2c
  deriving DecidableEq, Repr

/-- Where the service listens. -/
structure HostSettings where
  ip : String := "0.0.0.0"
  port : UInt16 := 8087
  deriving DecidableEq, Repr

/-- The chip and its bus. -/
structure DspSettings where
  family : Family
  protocol : Protocol := .spi
  busNumber : UInt32 := 0
  /-- The chip select on SPI or the device address on I2C, if one is given. -/
  givenDevice : Option UInt8 := none
  /-- Whether parameters are written through safeload. -/
  useSafeload : Bool := true
  /-- The pin of the reset line, if there is one. -/
  resetPin : Option Nat := none
  /-- How many milliseconds the reset line is held. -/
  resetHold : Nat := 10
  /-- The most bytes of a bus frame, if a number is given. -/
  givenFrameBytes : Option Nat := none
  deriving DecidableEq, Repr

/-- The settings of the service. -/
structure Settings where
  host : HostSettings := {}
  dsp : DspSettings
  /-- The expected safety hash, if there is one. -/
  safetyHash : Option HashCell := none
  deriving DecidableEq, Repr

/-- The most bytes that a bus frame may be allowed. -/
def frameBytesCeiling : Nat := 65535

namespace Protocol

/-- The name of a bus. -/
def name : Protocol → String
  | spi => "spi"
  | i2c => "i2c"

/-- The name of a bus as the journal shows it. -/
def title : Protocol → String
  | spi => "Spi"
  | i2c => "I2c"

/-- The buses by name. -/
def names : List (String × Protocol) := [("spi", spi), ("i2c", i2c)]

/-- The port of a device on a bus. -/
def port : Protocol → UInt8 → Port
  | spi, _ => .spi
  | i2c, device => .i2c device

/-- The device that is meant unless one is given. -/
def defaultDevice : Protocol → UInt8
  | spi => 0
  | i2c => 0x38

end Protocol

namespace DspSettings

/-- The device on the bus. -/
def device (dsp : DspSettings) : UInt8 := dsp.givenDevice.getD dsp.protocol.defaultDevice

/-- The port that leads to the chip. -/
def port (dsp : DspSettings) : Port := dsp.protocol.port dsp.device

/-- The most bytes of a bus frame. -/
def frameBytes (dsp : DspSettings) : Nat := dsp.givenFrameBytes.getD dsp.port.defaultFrameBytes

/-- The fewest bytes of a frame that has room for a word. -/
def leastFrameBytes (dsp : DspSettings) : Nat := dsp.port.headerLength + 4

/-- The bus transport of the chip. -/
def transport (dsp : DspSettings) (wire : Wire) : Transport :=
  .onBus dsp.port dsp.frameBytes wire

/-- The chip behind a transport. -/
def chip (dsp : DspSettings) (transport : Transport) : Chip :=
  { family := dsp.family, transport, useSafeload := dsp.useSafeload }

/-- The path of the bus device. -/
def devicePath (dsp : DspSettings) : String :=
  match dsp.protocol with
  | .spi => s!"/dev/spidev{dsp.busNumber}.{dsp.device}"
  | .i2c => s!"/dev/i2c-{dsp.busNumber}"

end DspSettings

/-- The address of the host. -/
def HostSettings.address (host : HostSettings) : Except ConfigurationError IpAddress :=
  match IpAddress.parse? host.ip with
  | some address => .ok address
  | none => .error (.invalidAddress host.ip)

namespace Settings

/-- The address and the port that the service listens on. -/
def listenAddress (settings : Settings) : Except ConfigurationError String :=
  return (← settings.host.address).socketText settings.host.port

/-- Settings are refused if the host's address is none, or if the frames are too small or too
large. -/
def validate (settings : Settings) : Except ConfigurationError Unit := do
  discard settings.host.address
  let bytes := settings.dsp.frameBytes
  if bytes < settings.dsp.leastFrameBytes then
    throw (.frameTooSmall bytes settings.dsp.leastFrameBytes)
  if frameBytesCeiling < bytes then
    throw (.frameTooLarge bytes frameBytesCeiling)

end Settings

end TuningBridge
