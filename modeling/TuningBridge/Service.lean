import TuningBridge.CommandLine
import TuningBridge.Environment
import TuningBridge.Settings.Document

/-!
# The service

The service reads its settings, takes over the chip, resets it if told to, and compares the safety
hash.  Then it listens for connections, whether the hash matched or not.
-/

namespace TuningBridge

/-- Why the service does not come up. -/
inductive StartFailure
  | settings (path : String) (error : ConfigurationError)
  /-- The device of the bus cannot be opened. -/
  | device (path : String)
  /-- The worker's queue cannot be that long. -/
  | queue (capacity : Nat)
  /-- The address cannot be listened on. -/
  | listen (address reason : String)
  deriving DecidableEq, Repr

namespace StartFailure

/-- A cause on lines of its own. -/
def indented (cause : String) : String :=
  String.join (cause.toList.map fun char => if char = '\n' then "\n    " else char.toString)

/-- What could not be done and its cause. -/
def explained (deed cause : String) : String :=
  s!"Error: {deed}\n\nCaused by:\n    {indented cause}\n"

/-- The report of a failure. -/
def report : StartFailure → String
  | settings path error => explained s!"load settings from {path}" error.message
  | device path => s!"Error: open {path}"
  | queue capacity => s!"Error: no room for {capacity} waiting commands"
  | listen address reason => explained s!"bind {address}" reason

/-- The exit code of a failure.  A queue that is too long ends the program before it can explain. -/
def exitCode : StartFailure → UInt8
  | queue _ => 101
  | settings .. | device _ | listen .. => 1

end StartFailure

/-- The service as it comes up. -/
structure Service where
  settings : Settings
  worker : Worker
  gate : HashGate

namespace Service

/-- Take over a chip in memory, and say what happens meanwhile.  Comparisons with a chip in memory
do not fail, so what the worker notes stands between the gate's first event and its others. -/
def simulate (settings : Settings) (reset : Bool) (plan : RetryPlan) : List Event × Service :=
  let bank : Bank := { recording := false }
  let started := Worker.start (settings.dsp.chip (.memory bank))
  let ready :=
    if reset then (started.perform (.hardReset settings.dsp.resetHold)).2 else started
  let (_, gate, worker) := HashGate.checkAtStartup {} ready settings.safetyHash plan
    fun _ worker => worker
  let before := ready.chip.journal
  let compared := worker.chip.journal.toList.drop before.size
  let checked := gate.journal.toList.take 1 ++ compared ++ gate.journal.toList.drop 1
  let ending := if gate.isUnlocked then [] else [Event.locked]
  (before.toList ++ checked ++ ending, { settings, worker, gate })

/-- Come up as told, with the contents of the settings file, and say what happens until then or
until the failure.  Bus devices are out of reach, so only a simulated chip can be taken over, and
only with a queue of a length that there can be. -/
def start (invocation : Invocation) (environment : Environment)
    (contents : Except FileFault ByteArray) : List Event × Except StartFailure Service :=
  match Settings.ofFile invocation.settingsPath contents with
  | .error error => ([], .error (.settings invocation.settingsPath error))
  | .ok settings =>
    let loaded := Event.settingsLoaded settings.dsp.family settings.dsp.protocol.title
    if !invocation.simulate then ([loaded], .error (.device settings.dsp.devicePath))
    else if Worker.maxQueueCapacity < environment.queueCapacity then
      ([loaded, .simulating], .error (.queue environment.queueCapacity))
    else
      let (events, service) := simulate settings invocation.reset environment.retryPlan
      ([loaded, .simulating] ++ events, .ok service)

end Service

end TuningBridge
