import TuningBridge.Dispatch
import TuningBridge.Proofs.Growth

/-!
# Commands in turn

What the worker has done on the way to the registers is at every moment what the executed commands
do one after the other, followed by a part of what the next accepted command does behind them.  The
invariant follows the worker through its states: idle, with a command in hand, and dead.
-/

namespace TuningBridge

namespace Worker

/-- What commands do on the way to the registers, one after the other. -/
def serial : Worker → List Command → List BusOperation
  | _, [] => []
  | worker, command :: rest => worker.operationsOf command ++ serial (worker.perform command).2 rest

/-- Commands in two parts do the operations of the first part and then, from there, those of the
second. -/
theorem serial_append (worker : Worker) (first second : List Command) :
    worker.serial (first ++ second) =
      worker.serial first ++ (worker.performAll first).serial second := by
  induction first generalizing worker with
  | nil => rfl
  | cons command rest ih =>
    rw [List.cons_append, serial, serial, ih, performAll_cons, List.append_assoc]

/-- One more command adds its own operations. -/
theorem serial_concat (worker : Worker) (commands : List Command) (command : Command) :
    worker.serial (commands ++ [command]) =
      worker.serial commands ++ (worker.performAll commands).operationsOf command := by
  rw [serial_append, serial, serial, List.append_nil]

/-- More commands do more operations behind the same ones. -/
theorem serial_prefix (worker : Worker) {first second : List Command} (h : first <+: second) :
    worker.serial first <+: worker.serial second := by
  obtain ⟨rest, rfl⟩ := h
  rw [serial_append]
  exact List.prefix_append _ _

/-- A command puts its operations behind those that the worker has done. -/
theorem operations_perform (worker : Worker) (command : Command) :
    (worker.perform command).2.chip.transport.operations =
      worker.chip.transport.operations ++ worker.operationsOf command := by
  obtain ⟨added, hadded⟩ := (worker.grows_perform command).operations
  rw [operationsOf, ← hadded, List.drop_left]

/-- The log of the transport holds what the commands did. -/
theorem operations_performAll (worker : Worker) (commands : List Command) :
    (worker.performAll commands).chip.transport.operations =
      worker.chip.transport.operations ++ worker.serial commands := by
  induction commands generalizing worker with
  | nil => exact (List.append_nil _).symm
  | cons command rest ih =>
    rw [performAll_cons, ih, operations_perform, serial, List.append_assoc]

end Worker

namespace Desk

/-- What the worker is at. -/
inductive Standing (initial : Worker) (desk : Desk) : Prop
  | idle (hinHand : desk.inHand = none) (hdropped : desk.dropped = [])
      (hworker : desk.worker = initial.performAll (desk.executed.map Call.command))
      (hbus : desk.bus = initial.serial (desk.executed.map Call.command))
  | busy (call : Call) (done pending : List BusOperation)
      (hinHand : desk.inHand = some { desk.worker.execution call with pending })
      (hdropped : desk.dropped = [])
      (hworker : desk.worker = initial.performAll (desk.executed.map Call.command))
      (hoperations : desk.worker.operationsOf call.command = done ++ pending)
      (hbus : desk.bus = initial.serial (desk.executed.map Call.command) ++ done)
  | dead (call : Call) (rest : List Call) (done : List BusOperation)
      (hinHand : desk.inHand = none) (hqueue : desk.queue = [])
      (hdropped : desk.dropped = call :: rest)
      (hworker : desk.worker = (initial.performAll (desk.executed.map Call.command)).kill)
      (hoperations :
        done <+: (initial.performAll (desk.executed.map Call.command)).operationsOf call.command)
      (hbus : desk.bus = initial.serial (desk.executed.map Call.command) ++ done)

/-- The calls that the worker has in hand. -/
def current (desk : Desk) : List Call := desk.inHand.toList.map Execution.call

/-- Every accepted call is in one place, and the worker has done the executed ones. -/
structure Sound (initial : Worker) (desk : Desk) : Prop where
  bounded : desk.queue.length ≤ desk.capacity
  places : desk.accepted = desk.executed ++ desk.current ++ desk.queue ++ desk.dropped
  standing : desk.Standing initial

namespace Sound

variable {initial : Worker} {desk : Desk}

/-- A living worker is behind the executed commands, and no call was lost. -/
theorem of_isAlive (h : desk.Sound initial) (hlives : desk.worker.isAlive = true) :
    desk.dropped = [] ∧ desk.worker = initial.performAll (desk.executed.map Call.command) := by
  cases h.standing with
  | idle _ hdropped hworker => exact ⟨hdropped, hworker⟩
  | busy _ _ _ _ hdropped hworker => exact ⟨hdropped, hworker⟩
  | dead _ _ _ _ _ _ hworker =>
    rw [hworker] at hlives
    cases hlives

/-- A dead worker has nothing in hand and nothing in the queue. -/
theorem of_not_isAlive (halive : initial.isAlive = true) (h : desk.Sound initial)
    (hdead : desk.worker.isAlive = false) : desk.inHand = none ∧ desk.queue = [] := by
  have hlives := initial.isAlive_performAll (desk.executed.map Call.command)
  cases h.standing with
  | idle _ _ hworker =>
    rw [hworker, hlives, halive] at hdead
    cases hdead
  | busy _ _ _ _ _ hworker =>
    rw [hworker, hlives, halive] at hdead
    cases hdead
  | dead _ _ _ hinHand hqueue => exact ⟨hinHand, hqueue⟩

/-- A desk that starts is sound. -/
theorem start (chip : Chip) (capacity : Nat) :
    Sound (Worker.start chip) { capacity, worker := Worker.start chip } where
  bounded := Nat.zero_le _
  places := rfl
  standing := .idle rfl rfl rfl rfl

/-- A desk stays sound when a call is accepted, which goes behind all others. -/
theorem accept (h : desk.Sound initial) (hopen : desk.isOpen = true) (call : Call) :
    (desk.accept call).Sound initial := by
  rw [isOpen, Bool.and_eq_true, decide_eq_true_eq] at hopen
  obtain ⟨hlives, hroom⟩ := hopen
  obtain ⟨hdropped, hworker⟩ := h.of_isAlive hlives
  constructor
  · show (desk.queue ++ [call]).length ≤ desk.capacity
    rw [List.length_append, List.length_singleton]
    exact hroom
  · show desk.accepted ++ [call] =
        desk.executed ++ desk.current ++ (desk.queue ++ [call]) ++ desk.dropped
    rw [h.places, hdropped]
    simp only [List.append_nil, List.append_assoc]
  · cases h.standing with
    | idle hinHand hdropped hworker hbus => exact .idle hinHand hdropped hworker hbus
    | busy call done pending hinHand hdropped hworker hoperations hbus =>
      exact .busy call done pending hinHand hdropped hworker hoperations hbus
    | dead _ _ _ _ _ hlost =>
      rw [hdropped] at hlost
      cases hlost

/-- A desk stays sound when the worker takes the call in front, with nothing of it done. -/
theorem take (h : desk.Sound initial) {call : Call} {rest : List Call} (hidle : desk.inHand = none)
    (hqueue : desk.queue = call :: rest) : (desk.take call rest).Sound initial := by
  constructor
  · have hlength := h.bounded
    rw [hqueue, List.length_cons] at hlength
    exact Nat.le_of_succ_le hlength
  · show desk.accepted = desk.executed ++ [call] ++ rest ++ desk.dropped
    rw [h.places, current, hidle, hqueue]
    simp
  · cases h.standing with
    | idle _ hdropped hworker hbus =>
      exact .busy call [] _ rfl hdropped hworker rfl (hbus.trans (List.append_nil _).symm)
    | busy other done pending hinHand =>
      rw [hidle] at hinHand
      cases hinHand
    | dead _ _ _ _ hempty =>
      rw [hqueue] at hempty
      cases hempty

/-- The command in hand, and what was done of it. -/
theorem of_inHand (h : desk.Sound initial) {execution : Execution}
    (hinHand : desk.inHand = some execution) :
    ∃ done,
      execution = { desk.worker.execution execution.call with pending := execution.pending } ∧
      desk.dropped = [] ∧
      desk.worker = initial.performAll (desk.executed.map Call.command) ∧
      desk.worker.operationsOf execution.call.command = done ++ execution.pending ∧
      desk.bus = initial.serial (desk.executed.map Call.command) ++ done := by
  cases h.standing with
  | idle hnone =>
    rw [hinHand] at hnone
    cases hnone
  | busy call done pending hbusy hdropped hworker hoperations hbus =>
    rw [hinHand] at hbusy
    obtain rfl := Option.some.inj hbusy
    exact ⟨done, rfl, hdropped, hworker, hoperations, hbus⟩
  | dead _ _ _ hnone =>
    rw [hinHand] at hnone
    cases hnone

/-- A desk stays sound when an operation moves from what is left of a command to what is done. -/
theorem operate (h : desk.Sound initial) {execution : Execution} {operation : BusOperation}
    {rest : List BusOperation} (hinHand : desk.inHand = some execution)
    (hpending : execution.pending = operation :: rest) :
    (desk.operate execution operation rest).Sound initial := by
  obtain ⟨done, hexecution, hdropped, hworker, hoperations, hbus⟩ := h.of_inHand hinHand
  constructor
  · exact h.bounded
  · have hplaces := h.places
    rw [current, hinHand] at hplaces
    exact hplaces
  · refine .busy execution.call (done ++ [operation]) rest ?_ hdropped hworker ?_ ?_
    · show some { execution with pending := rest } = _
      rw [hexecution]
      rfl
    · show desk.worker.operationsOf execution.call.command = _
      rw [hoperations, hpending, List.append_assoc, List.singleton_append]
    · show desk.bus ++ [operation] = _
      rw [hbus, List.append_assoc]
      rfl

/-- A desk stays sound when a command with nothing left to do counts as executed. -/
theorem finish (h : desk.Sound initial) {execution : Execution}
    (hinHand : desk.inHand = some execution) (hpending : execution.pending = []) :
    (desk.finish execution).Sound initial := by
  obtain ⟨done, hexecution, hdropped, hworker, hoperations, hbus⟩ := h.of_inHand hinHand
  rw [hpending, List.append_nil] at hoperations
  have hcommands : (desk.finish execution).executed.map Call.command =
      desk.executed.map Call.command ++ [execution.call.command] := List.map_append
  constructor
  · exact h.bounded
  · show desk.accepted = desk.executed ++ [execution.call] ++ [] ++ desk.queue ++ desk.dropped
    rw [h.places, current, hinHand]
    simp
  · refine .idle rfl hdropped ?_ ?_
    · rw [hcommands, Worker.performAll_append, ← hworker]
      show execution.after = _
      rw [hexecution]
      rfl
    · rw [hcommands, Worker.serial_concat, ← hworker, hoperations]
      exact hbus

/-- A desk stays sound when the worker dies with a part of a command done. -/
theorem die (h : desk.Sound initial) {execution : Execution}
    (hinHand : desk.inHand = some execution) : (desk.die execution).Sound initial := by
  obtain ⟨done, -, hdropped, hworker, hoperations, hbus⟩ := h.of_inHand hinHand
  constructor
  · exact Nat.zero_le _
  · show desk.accepted = desk.executed ++ [] ++ [] ++ execution.call :: desk.queue
    rw [h.places, current, hinHand, hdropped]
    simp
  · refine .dead execution.call desk.queue done rfl rfl rfl ?_ ?_ hbus
    · show desk.worker.kill = _
      rw [hworker]
      rfl
    · show done <+: (initial.performAll (desk.executed.map Call.command)).operationsOf
          execution.call.command
      rw [← hworker, hoperations]
      exact List.prefix_append _ _

/-- Behind the executed commands there is at most a part of the next accepted one, which is in hand
or was lost. -/
theorem exists_bus_eq (h : desk.Sound initial) :
    ∃ done, desk.bus = initial.serial (desk.executed.map Call.command) ++ done ∧
      (done = [] ∨ ∃ call rest, desk.accepted = desk.executed ++ call :: rest ∧
        done <+: (initial.performAll (desk.executed.map Call.command)).operationsOf
          call.command) := by
  have hplaces := h.places
  cases h.standing with
  | idle _ _ _ hbus => exact ⟨[], hbus.trans (List.append_nil _).symm, .inl rfl⟩
  | busy call done pending hinHand _ hworker hoperations hbus =>
    refine ⟨done, hbus, .inr ⟨call, desk.queue ++ desk.dropped, ?_, ?_⟩⟩
    · rw [hplaces, current, hinHand]
      simp [Worker.execution]
    · rw [← hworker, hoperations]
      exact List.prefix_append _ _
  | dead call rest done hinHand hqueue hdropped _ hoperations hbus =>
    refine ⟨done, hbus, .inr ⟨call, rest, ?_, hoperations⟩⟩
    rw [hplaces, current, hinHand, hqueue, hdropped]
    simp

/-- A worker with a command in hand is alive. -/
theorem isAlive_of_inHand (halive : initial.isAlive = true) (h : desk.Sound initial)
    {execution : Execution} (hinHand : desk.inHand = some execution) :
    desk.worker.isAlive = true := by
  obtain ⟨_, _, _, hworker, _⟩ := h.of_inHand hinHand
  rw [hworker, Worker.isAlive_performAll, halive]

/-- Calls are executed in the order in which they were accepted. -/
theorem executed_prefix (h : desk.Sound initial) : desk.executed <+: desk.accepted := by
  rw [h.places, List.append_assoc, List.append_assoc]
  exact List.prefix_append _ _

/-- What was done lies between the executed commands and the next one behind them. -/
theorem bus_between (h : desk.Sound initial) :
    initial.serial (desk.executed.map Call.command) <+: desk.bus ∧
      desk.bus <+: initial.serial
        ((desk.accepted.take (desk.executed.length + 1)).map Call.command) := by
  obtain ⟨done, hbus, hdone⟩ := h.exists_bus_eq
  refine ⟨hbus ▸ List.prefix_append _ _, ?_⟩
  rcases hdone with rfl | ⟨call, rest, haccepted, hdone⟩
  · rw [hbus, List.append_nil]
    refine initial.serial_prefix (List.IsPrefix.map _ ?_)
    obtain ⟨later, hlater⟩ := h.executed_prefix
    rw [← hlater, List.take_length_add_append]
    exact List.prefix_append _ _
  · rw [hbus, haccepted, List.take_length_add_append, List.take_succ_cons, List.take_zero,
      List.map_append, List.map_singleton, Worker.serial_concat]
    exact (List.prefix_append_right_inj _).mpr hdone

/-- An idle worker has done what the executed commands do. -/
theorem bus_of_idle (h : desk.Sound initial) (hlives : desk.worker.isAlive = true)
    (hidle : desk.inHand = none) : desk.bus = initial.serial (desk.executed.map Call.command) := by
  cases h.standing with
  | idle _ _ _ hbus => exact hbus
  | busy _ _ _ hinHand =>
    rw [hidle] at hinHand
    cases hinHand
  | dead _ _ _ _ _ _ hworker =>
    rw [hworker] at hlives
    cases hlives

end Sound

/-- A later state of the same desk. -/
structure Later (desk after : Desk) : Prop where
  accepted : desk.accepted <+: after.accepted
  executed : desk.executed <+: after.executed
  /-- A dead worker stays dead and does nothing more. -/
  dead : desk.worker.isAlive = false →
    after.worker.isAlive = false ∧ after.accepted = desk.accepted ∧ after.executed = desk.executed ∧
      after.bus = desk.bus

namespace Later

theorem refl (desk : Desk) : desk.Later desk :=
  ⟨List.prefix_rfl, List.prefix_rfl, fun hdead => ⟨hdead, rfl, rfl, rfl⟩⟩

theorem trans {desk middle after : Desk} (first : desk.Later middle) (second : middle.Later after) :
    desk.Later after := by
  refine ⟨first.accepted.trans second.accepted, first.executed.trans second.executed,
    fun hdead => ?_⟩
  obtain ⟨hmiddle, haccepted, hexecuted, hbus⟩ := first.dead hdead
  obtain ⟨hafter, haccepted', hexecuted', hbus'⟩ := second.dead hmiddle
  exact ⟨hafter, haccepted'.trans haccepted, hexecuted'.trans hexecuted, hbus'.trans hbus⟩

/-- A worker that is alive was alive before. -/
theorem isAlive {desk after : Desk} (h : desk.Later after) (hlives : after.worker.isAlive = true) :
    desk.worker.isAlive = true := by
  cases hdead : desk.worker.isAlive with
  | true => rfl
  | false =>
    rw [(h.dead hdead).1] at hlives
    cases hlives

end Later

/-- How far the worker has come: every executed command was taken and finished. -/
def progress (desk : Desk) : Nat := 2 * desk.executed.length + desk.current.length + desk.bus.length

end Desk

end TuningBridge
