import TuningBridge.Proofs.Exchange
import TuningBridge.Proofs.Schedule

/-!
# A client alone

A client that has the worker for itself sees one command after the other: the reply to a command is
its outcome, and the worker is behind it.  This is how a session sees the worker.
-/

namespace TuningBridge

namespace Dispatch

variable {d : Dispatch} {client : Nat}

theorem run_append (d : Dispatch) (first second : List Action) :
    d.run (first ++ second) = (d.run first).bind (·.run second) := by
  induction first generalizing d with
  | nil => rfl
  | cons action rest ih =>
    rw [List.cons_append, run, run, Option.bind_assoc]
    exact congrArg _ (funext ih)

/-- The worker does everything that is to be done for the command in hand. -/
private theorem run_operate {execution : Execution} (hinHand : d.inHand = some execution) :
    d.run (List.replicate execution.pending.length .operate) = some
      { d with toDesk := { d.toDesk with
        inHand := some { execution with pending := [] }
        bus := d.bus ++ execution.pending } } := by
  obtain ⟨call, pending, outcome, last⟩ := execution
  induction pending generalizing d with
  | nil => simp [run, ← hinHand]
  | cons operation rest ih =>
    rw [List.length_cons, List.replicate_succ, run]
    simp only [step?, hinHand, Option.bind_some]
    rw [ih rfl]
    simp [Desk.operate]

/-- The dispatch behind the turn of the next call. -/
def served (d : Dispatch) (call : Call) (rest : List Call) : Dispatch :=
  { d with
    worker := (d.worker.perform call.command).2
    queue := rest
    bus := d.bus ++ d.worker.operationsOf call.command
    executed := d.executed ++ [call] }

/-- The steps of a turn. -/
def turn (worker : Worker) (call : Call) : List Action :=
  .take :: (List.replicate (worker.operationsOf call.command).length .operate ++ [.finish])

/-- The worker serves the next call. -/
theorem run_turn {call : Call} {rest : List Call} (hidle : d.inHand = none)
    (hqueue : d.queue = call :: rest) :
    d.run (turn d.worker call) =
      some ((d.served call rest).deliver call (d.worker.perform call.command).1) := by
  have hoperate := @run_operate { d with toDesk := d.take call rest } (d.worker.execution call) rfl
  have htake : d.step? .take = some { d with toDesk := d.take call rest } := by
    simp only [step?, hidle, hqueue]
  rw [turn, run, htake, Option.bind_some, run_append]
  refine (congrArg (Option.bind · _) hoperate).trans ?_
  simp [run, step?, Desk.take, Desk.finish, served, Worker.execution, hidle]

/-- A client that has the worker for itself gets the outcome of its command. -/
theorem exists_run_alone {command : Command} (hclient : d.clients client = .nothing)
    (halive : d.worker.isAlive = true) (hidle : d.inHand = none) (hqueue : d.queue = [])
    (hroom : 0 < d.capacity) :
    ∃ actions after, d.run actions = some after ∧ after.worker = (d.worker.perform command).2 ∧
      after.returned =
        d.returned ++ [(⟨d.issued.length, client, command⟩, (d.worker.perform command).1)] ∧
      after.clients client = .nothing ∧ after.inHand = none ∧ after.queue = [] := by
  let call : Call := ⟨d.issued.length, client, command⟩
  have hissue : d.step? (.issue client command) = some (d.propose call) := by
    simp only [step?, hclient]
    rfl
  have hwaits : (d.propose call).clients client = .room call := if_pos rfl
  have hopen : (d.propose call).isOpen = true := by
    show (d.worker.isAlive && decide (d.queue.length < d.capacity)) = true
    rw [halive, hqueue]
    exact decide_eq_true hroom
  have hqueued : ((d.propose call).accept call).queue = [call] := by
    show d.queue ++ [call] = [call]
    rw [hqueue]
    rfl
  cases hunanswered : command.isUnanswered with
  | true =>
    have hdone : (d.worker.perform command).1 = .ok .done := by
      cases command with
      | write address data => exact Worker.perform_write halive address data
      | safeload address data => exact Worker.perform_safeload halive address data
      | _ => cases hunanswered
    have henqueue : (d.propose call).step? (.enqueue client) = some
        ({ d.propose call with toDesk := (d.propose call).accept call }.answer client call
          (.ok .done)) := by
      simp only [step?, hwaits, hopen, if_true]
      exact if_pos hunanswered
    refine ⟨.issue client command :: .enqueue client :: turn d.worker call, _,
      run_cons.mpr ⟨_, hissue, run_cons.mpr ⟨_, henqueue, run_turn hidle hqueued⟩⟩, rfl, ?_,
      ?_, hidle, rfl⟩
    · rw [hdone]
      rfl
    · simp [deliver, served, answer, setClient, Waiting.receive]
  | false =>
    have henqueue : (d.propose call).step? (.enqueue client) = some
        ({ d.propose call with toDesk := (d.propose call).accept call }.setClient client
          (.reply call none)) := by
      simp only [step?, hwaits, hopen, if_true]
      exact if_neg (Bool.eq_false_iff.mp hunanswered)
    let queued : Dispatch :=
      { d.propose call with toDesk := (d.propose call).accept call }.setClient client
        (.reply call none)
    let sent : Dispatch := (queued.served call []).deliver call (d.worker.perform command).1
    have hturn : queued.run (turn d.worker call) = some sent := run_turn hidle hqueued
    have hcollect : sent.step? (.collect client) =
        some (sent.answer client call (d.worker.perform command).1) := by
      have hsent : sent.clients client = .reply call (some (d.worker.perform command).1) := by
        simp [sent, queued, deliver, served, setClient, Waiting.receive]
      simp only [step?, hsent]
    refine ⟨.issue client command :: .enqueue client :: (turn d.worker call ++ [.collect client]),
      sent.answer client call (d.worker.perform command).1,
      run_cons.mpr ⟨_, hissue, run_cons.mpr ⟨_, henqueue, ?_⟩⟩, rfl, rfl, if_pos rfl, hidle, rfl⟩
    rw [run_append, hturn]
    exact run_cons.mpr ⟨_, hcollect, rfl⟩

/-- A session that has the worker for itself is such a client. -/
theorem exists_run_session {session : Session} {command : Command} {answer : Answer}
    (h : (session.worker.perform command).1 = .ok answer) (hworker : d.worker = session.worker)
    (hclient : d.clients client = .nothing) (halive : d.worker.isAlive = true)
    (hidle : d.inHand = none) (hqueue : d.queue = []) (hroom : 0 < d.capacity) :
    ∃ actions after, d.run actions = some after ∧
      (SessionM.perform command).run session = .ok answer { session with worker := after.worker } ∧
      after.returned = d.returned ++ [(⟨d.issued.length, client, command⟩, .ok answer)] := by
  obtain ⟨actions, after, hrun, hafter, hreturned, -⟩ :=
    @exists_run_alone d client command hclient halive hidle hqueue hroom
  rw [hworker] at hafter hreturned
  refine ⟨actions, after, hrun, ?_, h ▸ hreturned⟩
  rw [SessionM.run_perform h, hafter]

end Dispatch

end TuningBridge
