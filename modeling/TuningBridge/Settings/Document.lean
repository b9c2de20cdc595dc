import TuningBridge.Settings.Basic
import TuningBridge.Settings.Reading
import TuningBridge.Text.Position
import TuningBridge.Toml.Document

/-!
# Settings documents

Settings are written as a document of three tables: `host`, `dsp` and `safety_hash`.  Only the
family of the chip has to be given.
-/

namespace TuningBridge

open Reading (unsigned size boolean string choice)

/-- Where the service listens. -/
def HostSettings.shape : Shape HostSettings where
  name := "HostSettings"
  blank := {}
  slots := [
    .reading "ip" .never string fun ip host => { host with ip },
    .reading "port" .never (unsigned 16) fun port host => { host with port := UInt16.ofNat port }]

/-- The chip and its bus.  The family of the blank record never shows, since it has to be given. -/
def DspSettings.shape : Shape DspSettings where
  name := "DspSettings"
  blank := { family := .adau14xx }
  slots := [
    .reading "type" .always (choice Family.spellings) fun family dsp => { dsp with family },
    .reading "protocol" .never (choice Protocol.names) fun protocol dsp => { dsp with protocol },
    .reading "bus_number" .never (unsigned 32) fun number dsp =>
      { dsp with busNumber := UInt32.ofNat number },
    .reading "device_address" .inArrays (unsigned 8) fun device dsp =>
      { dsp with givenDevice := some (UInt8.ofNat device) },
    .reading "use_safeload" .never boolean fun useSafeload dsp => { dsp with useSafeload },
    .reading "reset_pin" .inArrays (unsigned 64) fun pin dsp => { dsp with resetPin := some pin },
    .reading "reset_hold_ms" .never (unsigned 64) fun resetHold dsp => { dsp with resetHold },
    .reading "max_transfer_bytes" .inArrays size fun bytes dsp =>
      { dsp with givenFrameBytes := some bytes }]

/-- The expected safety hash. -/
def HashCell.shape : Shape HashCell where
  name := "SafetyHashCell"
  blank := ⟨0, 0⟩
  slots := [
    .reading "address" .always (unsigned 16) fun address cell =>
      { cell with address := UInt16.ofNat address },
    .reading "value" .always (unsigned 32) fun value cell =>
      { cell with value := UInt32.ofNat value }]

namespace Settings

/-- The settings of a document. -/
def shape : Shape Settings where
  name := "Settings"
  blank := { dsp := DspSettings.shape.blank }
  slots := [
    .reading "host" .never HostSettings.shape.read fun host settings => { settings with host },
    .reading "dsp" .always DspSettings.shape.read fun dsp settings => { settings with dsp },
    .reading "safety_hash" .inArrays HashCell.shape.read fun cell settings =>
      { settings with safetyHash := some cell }]

/-- The settings that a text writes, without regard to their validity.  A fault is reported by its
line and column. -/
def read (text : String) : Except ConfigurationError Settings :=
  match Toml.Document.read? text with
  | none => .error .malformed
  | some entries =>
    match shape.ofEntries 0 entries with
    | .ok settings => .ok settings
    | .error fault =>
      let (line, column) := Text.position text fault.offset
      .error (.misfit line column fault.misfit)

/-- Whether a text is a document that every reader of such documents takes, whatever it says. -/
def isPortable (text : String) : Bool := (Toml.Document.read? text).any Toml.entriesPortable

/-- The valid settings that a text writes. -/
def ofText (text : String) : Except ConfigurationError Settings := do
  let settings ← read text
  settings.validate
  return settings

/-- The valid settings that the bytes of a file write. -/
def ofFile (path : String) (contents : Except FileFault ByteArray) :
    Except ConfigurationError Settings :=
  match contents with
  | .error fault => .error (.unreadable path fault)
  | .ok bytes =>
    match String.fromUTF8? bytes with
    | none => .error (.unreadable path .notText)
    | some text => ofText text

end Settings

/-- The family of a name. -/
def Family.parse (name : String) : Except ConfigurationError Family :=
  match Family.ofName? name with
  | some family => .ok family
  | none => .error (.unknownFamily name)

end TuningBridge
