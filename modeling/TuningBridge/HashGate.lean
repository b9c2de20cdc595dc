import TuningBridge.Worker

/-!
# The safety gate

The gate remembers whether the last comparison of the safety hash matched.  At startup the
comparison is repeated while the chip may still be booting.
-/

namespace TuningBridge

/-- How often a comparison is made at startup, and the pause between two. -/
structure RetryPlan where
  attempts : Nat
  /-- The pause in milliseconds. -/
  backoff : Nat
  deriving DecidableEq, Repr

/-- The gate in front of parameter writes, locked until a comparison matches. -/
structure HashGate where
  /-- Whether the last comparison matched. -/
  isUnlocked : Bool := false
  /-- The events so far. -/
  journal : Array Event := #[]
  deriving Repr

namespace HashGate

/-- Put an event into the journal. -/
def note (gate : HashGate) (event : Event) : HashGate :=
  { gate with journal := gate.journal.push event }

/-- The outcome of a comparison as a verdict. -/
def verdict : Except Error Answer → Except Error Bool
  | .ok (.verdict matched) => .ok matched
  | .ok _ => .ok false
  | .error error => .error error

/-- Compare the hash once and remember whether it matched. -/
def check (gate : HashGate) (worker : Worker) (cell : Option HashCell) :
    Except Error Bool × HashGate × Worker :=
  let (outcome, worker) := worker.perform (.checkHash cell)
  let matched := match verdict outcome with
    | .ok true => true
    | _ => false
  (verdict outcome, { gate with isUnlocked := matched }, worker)

/-- Compare the hash up to a number of times.  A match ends the attempts, and so do a missing hash
register and a missing worker.  `meanwhile` is what happens to the worker in the pause after an
attempt, whose number it is given. -/
def attempt (cell : Option HashCell) (meanwhile : Nat → Worker → Worker) :
    (left number : Nat) → HashGate → Worker → Bool × HashGate × Worker
  | 0, _, gate, worker => (false, gate.note .startupCheckFailed, worker)
  | left + 1, number, gate, worker =>
    let pause (worker : Worker) := if left = 0 then worker else meanwhile number worker
    match gate.check worker cell with
    | (.ok true, gate, worker) => (true, gate, worker)
    | (.ok false, gate, worker) =>
      if cell.isNone then (false, gate.note .startupCheckFailed, worker)
      else attempt cell meanwhile left (number + 1) gate (pause worker)
    | (.error .workerGone, gate, worker) => (false, gate.note .startupCheckFailed, worker)
    | (.error error, gate, worker) =>
      attempt cell meanwhile left (number + 1) (gate.note (.startupAttemptFailed number error))
        (pause worker)

/-- Check at startup, with as many attempts as the plan allows; `meanwhile` is what happens to the
worker in the pauses between them. -/
def checkAtStartup (gate : HashGate) (worker : Worker) (cell : Option HashCell) (plan : RetryPlan)
    (meanwhile : Nat → Worker → Worker) : Bool × HashGate × Worker :=
  attempt cell meanwhile plan.attempts 1 (gate.note .startupCheck) worker

end HashGate

end TuningBridge
