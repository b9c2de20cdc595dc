import TuningBridge.Command

/-!
# The worker

The worker owns the chip and carries out commands one at a time, in the order of their arrival.
Once it is gone no command reaches the chip.
-/

namespace TuningBridge

/-- The owner of the chip. -/
structure Worker where
  chip : Chip
  /-- Whether the worker still takes commands. -/
  isAlive : Bool := true

namespace Worker

/-- The most commands for which a worker's queue has room. -/
def maxQueueCapacity : Nat := 0x1FFFFFFFFFFFFFFF

/-- Hand the chip over to a worker. -/
def start (chip : Chip) : Worker :=
  { chip := { chip with journal := chip.journal.push (.workerStarted chip.family) } }

/-- The family of the worker's chip. -/
def family (worker : Worker) : Family := worker.chip.family

/-- Carry out a command, if the worker is still there. -/
def perform (worker : Worker) (command : Command) : Except Error Answer × Worker :=
  if worker.isAlive then
    match command.run worker.chip with
    | .ok answer chip => (.ok answer, { worker with chip })
    | .error error chip => (.error error, { worker with chip })
  else (.error .workerGone, worker)

/-- The worker stops in the middle of its work. -/
def kill (worker : Worker) : Worker := { worker with isAlive := false }

/-- The events that the worker has noted since they were taken last. -/
def takeEvents (worker : Worker) : List Event × Worker :=
  (worker.chip.journal.toList, { worker with chip := { worker.chip with journal := #[] } })

/-- The worker ends after its last client has gone. -/
def stop (worker : Worker) : Worker :=
  if worker.isAlive then
    { chip := { worker.chip with journal := worker.chip.journal.push .workerStopped },
      isAlive := false }
  else worker

end Worker

end TuningBridge
