import TuningBridge.HashGate

/-!
# The environment

Environment variables bound the queue, the payloads and the checks at startup.  A variable that is
not set, or not set to a number, leaves its default.
-/

namespace TuningBridge

/-- What the environment sets. -/
structure Environment where
  /-- How many commands wait for the worker at most. -/
  queueCapacity : Nat := 32
  /-- The most payload bytes that a packet may declare. -/
  payloadLimit : Nat := 1048576
  /-- How often the safety hash is compared at startup. -/
  retryAttempts : Nat := 5
  /-- The pause between two comparisons in milliseconds. -/
  retryBackoff : Nat := 5000
  /-- Whether payload bytes are logged. -/
  showsPayloads : Bool := false
  deriving DecidableEq, Repr

namespace Environment

/-- Digits as a number of at most 64 bits. -/
def number? (digits : List Char) : Option Nat :=
  let value := digits.foldl (fun value digit => value * 10 + (digit.toNat - 48)) 0
  if !digits.isEmpty && digits.all Char.isDigit && value < 0x10000000000000000 then some value
  else none

/-- A number in decimal digits, with a plus sign in front or without. -/
def setting? (text : String) : Option Nat :=
  match text.toList with
  | '+' :: digits => number? digits
  | digits => number? digits

/-- The environment in which variables have the given values.  A queue has room for one command at
least. -/
def ofVariables (value? : String → Option String) : Environment :=
  let number (name : String) (accepts : Nat → Bool) (default : Nat) : Nat :=
    (((value? name).bind setting?).filter accepts).getD default
  { queueCapacity := number "SIGMADSP_CHANNEL_CAPACITY" (0 < ·) 32
    payloadLimit := number "SIGMADSP_MAX_PAYLOAD_BYTES" (fun _ => true) 1048576
    retryAttempts := number "SIGMADSP_SAFETY_RETRY_ATTEMPTS" (fun _ => true) 5
    retryBackoff := number "SIGMADSP_SAFETY_RETRY_BACKOFF_MS" (fun _ => true) 5000
    showsPayloads := value? "SIGMADSP_LOG_PAYLOADS" = some "1" }

/-- The variables that are read. -/
def variableNames : List String :=
  ["SIGMADSP_CHANNEL_CAPACITY", "SIGMADSP_MAX_PAYLOAD_BYTES", "SIGMADSP_SAFETY_RETRY_ATTEMPTS",
    "SIGMADSP_SAFETY_RETRY_BACKOFF_MS", "SIGMADSP_LOG_PAYLOADS"]

/-- How the safety hash is compared at startup; one attempt is made in any case. -/
def retryPlan (environment : Environment) : RetryPlan :=
  ⟨max 1 environment.retryAttempts, environment.retryBackoff⟩

end Environment

end TuningBridge
