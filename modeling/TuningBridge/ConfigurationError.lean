import TuningBridge.FileTree
import TuningBridge.Settings.Fault

/-!
# Configuration errors

Why the service cannot be configured, and the wording.
-/

namespace TuningBridge

/-- Why the service cannot be configured. -/
inductive ConfigurationError
  /-- A name that no chip family has. -/
  | unknownFamily (name : String)
  /-- A text that is no settings document. -/
  | malformed
  /-- A value that does not fit its setting, by line and column. -/
  | misfit (line column : Nat) (cause : Misfit)
  /-- A text that is no internet address. -/
  | invalidAddress (text : String)
  /-- A frame into which no word goes. -/
  | frameTooSmall (bytes least : Nat)
  /-- A frame of more bytes than a frame may have. -/
  | frameTooLarge (bytes most : Nat)
  /-- A settings file that is not read. -/
  | unreadable (path : String) (fault : FileFault)
  deriving DecidableEq, Repr

namespace ConfigurationError

/-- The cause of an error in words. -/
def cause : ConfigurationError → String
  | unknownFamily name => s!"unknown DSP type '{name}'"
  | malformed => "settings parse error"
  | misfit line column cause => s!"settings parse error at {line}:{column}: {cause.text}"
  | invalidAddress text => s!"invalid host ip '{text}': invalid IP address syntax"
  | frameTooSmall bytes least =>
    s!"max_transfer_bytes {bytes} cannot carry a single word (minimum {least})"
  | frameTooLarge bytes most => s!"max_transfer_bytes {bytes} exceeds {most}"
  | unreadable path fault => s!"read settings {path}: {fault.text}"

/-- The wording of an error.  A text that is no document at all has no place to point at, and its
error stands alone. -/
def message (error : ConfigurationError) : String :=
  match error with
  | malformed => error.cause
  | _ => s!"configuration error: {error.cause}"

end ConfigurationError

end TuningBridge
