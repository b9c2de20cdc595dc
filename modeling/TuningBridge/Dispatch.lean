import TuningBridge.Worker

/-!
# The queue in front of the worker

Clients share the worker through a bounded queue.  A client offers a command, waits until the queue
has room for it and then, unless the command is unanswered, for the reply; it may leave at any time.
The worker takes one command after the other and does one thing after the other on the way to the
registers.  It may die in the middle of a command, and then all commands in the queue are dropped.
-/

namespace TuningBridge

/-- A command that a client has issued. -/
structure Call where
  /-- How many calls were issued before, by any client. -/
  number : Nat
  client : Nat
  command : Command
  deriving DecidableEq, Repr

/-- A command that the worker has in hand. -/
structure Execution where
  call : Call
  /-- What is still to be done on the way to the registers. -/
  pending : List BusOperation
  /-- The outcome of the command. -/
  outcome : Except Error Answer
  /-- The worker behind the command. -/
  after : Worker

namespace Worker

/-- What a command does on the way to the registers. -/
def operationsOf (worker : Worker) (command : Command) : List BusOperation :=
  (worker.perform command).2.chip.transport.operations.drop worker.chip.transport.operations.length

/-- The worker takes the command of a call in hand. -/
def execution (worker : Worker) (call : Call) : Execution where
  call := call
  pending := worker.operationsOf call.command
  outcome := (worker.perform call.command).1
  after := (worker.perform call.command).2

end Worker

/-- The worker and its queue. -/
structure Desk where
  /-- How many commands the queue has room for. -/
  capacity : Nat
  /-- The worker as the last executed command has left it. -/
  worker : Worker
  inHand : Option Execution := none
  /-- The calls whose commands are in the queue, the next one in front. -/
  queue : List Call := []
  /-- What was done on the way to the registers since the start. -/
  bus : List BusOperation := []
  /-- The calls that went into the queue, in their order. -/
  accepted : List Call := []
  /-- The calls whose commands were carried out, in their order. -/
  executed : List Call := []
  /-- The calls that were lost with the worker, the one in hand in front. -/
  dropped : List Call := []

namespace Desk

/-- Whether the queue takes one more command. -/
def isOpen (desk : Desk) : Bool := desk.worker.isAlive && desk.queue.length < desk.capacity

/-- A call goes into the queue. -/
def accept (desk : Desk) (call : Call) : Desk :=
  { desk with
    queue := desk.queue ++ [call]
    accepted := desk.accepted ++ [call] }

/-- The worker takes the next call out of the queue. -/
def take (desk : Desk) (call : Call) (rest : List Call) : Desk :=
  { desk with
    inHand := some (desk.worker.execution call)
    queue := rest }

/-- The worker does the next thing on the way to the registers. -/
def operate (desk : Desk) (execution : Execution) (operation : BusOperation)
    (rest : List BusOperation) : Desk :=
  { desk with
    inHand := some { execution with pending := rest }
    bus := desk.bus ++ [operation] }

/-- The worker is done with the command in hand. -/
def finish (desk : Desk) (execution : Execution) : Desk :=
  { desk with
    worker := execution.after
    inHand := none
    executed := desk.executed ++ [execution.call] }

/-- The worker dies with a command in hand, and the queue is lost with it. -/
def die (desk : Desk) (execution : Execution) : Desk :=
  { desk with
    worker := desk.worker.kill
    inHand := none
    queue := []
    dropped := execution.call :: desk.queue }

end Desk

/-- What a client is waiting for. -/
inductive Waiting
  | nothing
  /-- Room in the queue. -/
  | room (call : Call)
  /-- A reply, which stays until the client collects it. -/
  | reply (call : Call) (sent : Option (Except Error Answer))

/-- The reply to a call is sent to a client, who may be waiting for it or not. -/
def Waiting.receive (call : Call) (outcome : Except Error Answer) : Waiting → Waiting
  | .reply other none => .reply other (if other = call then some outcome else none)
  | waiting => waiting

/-- The worker, its queue and its clients. -/
structure Dispatch extends Desk where
  clients : Nat → Waiting := fun _ => .nothing
  /-- All calls, in the order in which clients issued them. -/
  issued : List Call := []
  /-- What calls returned to their clients, in the order in which they did. -/
  returned : List (Call × Except Error Answer) := []

namespace Dispatch

/-- What clients and the worker do. -/
inductive Action
  /-- A client offers a command. -/
  | issue (client : Nat) (command : Command)
  /-- The command of a client goes into the queue. -/
  | enqueue (client : Nat)
  /-- The command of a client finds no worker. -/
  | refuse (client : Nat)
  /-- A client takes the reply that was sent to it. -/
  | collect (client : Nat)
  /-- A client learns that its reply will not come. -/
  | lose (client : Nat)
  /-- A client goes away before it has an answer. -/
  | leave (client : Nat)
  /-- The worker takes the next command. -/
  | take
  /-- The worker does the next thing on the way to the registers. -/
  | operate
  /-- The worker sends the reply to the command in hand. -/
  | finish
  /-- The worker dies in the middle of a command. -/
  | die
  deriving DecidableEq, Repr

/-- Whether the worker goes on with its work. -/
def Action.isWork : Action → Bool
  | take | operate | finish => true
  | _ => false

/-- A worker that has just taken over a chip, and a queue with room for at least one command. -/
def start (chip : Chip) (capacity : Nat) : Dispatch where
  capacity := max capacity 1
  worker := Worker.start chip

/-- Change what a client is waiting for. -/
def setClient (dispatch : Dispatch) (client : Nat) (waiting : Waiting) : Dispatch :=
  { dispatch with
    clients := fun other => if other = client then waiting else dispatch.clients other }

/-- A client offers the command of a call. -/
def propose (dispatch : Dispatch) (call : Call) : Dispatch :=
  { dispatch.setClient call.client (.room call) with issued := dispatch.issued ++ [call] }

/-- A call returns to its client. -/
def answer (dispatch : Dispatch) (client : Nat) (call : Call) (outcome : Except Error Answer) :
    Dispatch :=
  { dispatch.setClient client .nothing with returned := dispatch.returned ++ [(call, outcome)] }

/-- The reply to a call goes to whoever is waiting for it. -/
def deliver (dispatch : Dispatch) (call : Call) (outcome : Except Error Answer) : Dispatch :=
  { dispatch with clients := fun client => (dispatch.clients client).receive call outcome }

/-- Do one thing, if it can be done now. -/
def step? (dispatch : Dispatch) : Action → Option Dispatch
  | .issue client command =>
    match dispatch.clients client with
    | .nothing => some (dispatch.propose ⟨dispatch.issued.length, client, command⟩)
    | _ => none
  | .enqueue client =>
    match dispatch.clients client with
    | .room call =>
      if dispatch.isOpen then
        let accepting := { dispatch with toDesk := dispatch.accept call }
        if call.command.isUnanswered then some (accepting.answer client call (.ok .done))
        else some (accepting.setClient client (.reply call none))
      else none
    | _ => none
  | .refuse client =>
    match dispatch.clients client with
    | .room call =>
      if dispatch.worker.isAlive then none
      else some (dispatch.answer client call (.error .workerGone))
    | _ => none
  | .collect client =>
    match dispatch.clients client with
    | .reply call (some outcome) => some (dispatch.answer client call outcome)
    | _ => none
  | .lose client =>
    match dispatch.clients client with
    | .reply call none =>
      if dispatch.worker.isAlive then none
      else some (dispatch.answer client call (.error .workerGone))
    | _ => none
  | .leave client =>
    match dispatch.clients client with
    | .nothing => none
    | _ => some (dispatch.setClient client .nothing)
  | .take =>
    match dispatch.inHand, dispatch.queue with
    | none, call :: rest => some { dispatch with toDesk := dispatch.take call rest }
    | _, _ => none
  | .operate =>
    match dispatch.inHand with
    | some execution =>
      match execution.pending with
      | operation :: rest =>
        some { dispatch with toDesk := dispatch.operate execution operation rest }
      | [] => none
    | none => none
  | .finish =>
    match dispatch.inHand with
    | some execution =>
      match execution.pending with
      | [] =>
        let finishing := { dispatch with toDesk := dispatch.finish execution }
        some (finishing.deliver execution.call execution.outcome)
      | _ :: _ => none
    | none => none
  | .die =>
    match dispatch.inHand with
    | some execution => some { dispatch with toDesk := dispatch.die execution }
    | none => none

/-- Do one thing after the other, as long as they can be done. -/
def run (dispatch : Dispatch) : List Action → Option Dispatch
  | [] => some dispatch
  | action :: rest => (dispatch.step? action).bind (·.run rest)

end Dispatch

end TuningBridge
