import TuningBridge.Proofs.Clients

/-!
# Every schedule is a sequence

However clients and worker take their steps, the effect is that of carrying out the accepted
commands one after the other.  The worker gets to every accepted command, also when nobody waits for
it any more, and a worker that dies leaves a beginning of the sequence behind and answers nobody.
-/

namespace TuningBridge

namespace Dispatch

variable {initial : Worker} {d after : Dispatch}

/-- A run takes its first step and goes on from there. -/
theorem run_cons {action : Action} {rest : List Action} :
    d.run (action :: rest) = some after ↔
      ∃ middle, d.step? action = some middle ∧ middle.run rest = some after := by
  rw [run, Option.bind_eq_some_iff]

/-- A run keeps the invariant, and a living worker gets on with each step of its work. -/
theorem sound_of_run {actions : List Action} (h : d.run actions = some after)
    (halive : initial.isAlive = true) (hsound : d.Sound initial) :
    after.Sound initial ∧ d.Later after.toDesk ∧
      (after.worker.isAlive = true →
        after.progress = d.progress + actions.countP Action.isWork) := by
  induction actions generalizing d with
  | nil =>
    obtain rfl := Option.some.inj h
    exact ⟨hsound, .refl _, fun _ => rfl⟩
  | cons action rest ih =>
    obtain ⟨middle, hstep, hrest⟩ := run_cons.mp h
    have hstep' := step_of_step? hstep
    obtain ⟨hafter, hlater, hprogress⟩ := ih hrest (hstep'.sound halive hsound)
    refine ⟨hafter, (hstep'.later halive hsound.desk).trans hlater, fun hlives => ?_⟩
    rw [hprogress hlives, hstep'.progress (hlater.isAlive hlives), List.countP_cons]
    cases action.isWork with
    | true => exact Nat.add_right_comm _ _ _
    | false => rfl

/-- The state of a dispatch is the one of a worker that carries out the accepted commands one after
the other. -/
structure Serialized (initial : Worker) (d : Dispatch) : Prop where
  /-- Every accepted call is executed, in hand, in the queue or lost with the worker, in this
  order. -/
  places : d.accepted = d.executed ++ d.current ++ d.queue ++ d.dropped
  /-- No call has two places. -/
  distinct : d.accepted.Nodup
  /-- Only a dead worker has lost calls. -/
  dropped : d.worker.isAlive = true → d.dropped = []
  bounded : d.queue.length ≤ d.capacity
  issued : d.accepted ⊆ d.issued
  /-- Calls are numbered in the order in which they are issued. -/
  numbers : d.issued.map Call.number = List.range d.issued.length
  /-- The commands of one client are accepted in the order in which it issues them. -/
  ordered : d.accepted.Pairwise fun first second =>
    first.client = second.client → first.number < second.number
  worker : d.worker.isAlive = true → d.worker = initial.performAll (d.executed.map Call.command)
  /-- The log of the transport is the one of the executed commands. -/
  log : d.worker.isAlive = true → d.worker.chip.transport.operations =
    initial.chip.transport.operations ++ initial.serial (d.executed.map Call.command)
  /-- What was done on the way to the registers is what the executed commands do one after the
  other, and a part of what the next accepted command does behind them. -/
  bus : initial.serial (d.executed.map Call.command) <+: d.bus ∧
    d.bus <+: initial.serial ((d.accepted.take (d.executed.length + 1)).map Call.command)
  /-- Between two commands there is no such part. -/
  idle : d.worker.isAlive = true → d.inHand = none →
    d.bus = initial.serial (d.executed.map Call.command)
  /-- A reply is sent to the client of the call, and is the outcome of its command at its place. -/
  sent : ∀ client call outcome, d.clients client = .reply call (some outcome) →
    call.client = client ∧ call.IsOutcome initial d.executed outcome
  /-- A client waits for a reply only as long as its command is not executed. -/
  unsent : ∀ client call, d.clients client = .reply call none →
    call.client = client ∧ call ∈ d.accepted ∧ call ∉ d.executed
  returns : ∀ call outcome, (call, outcome) ∈ d.returned → Returns initial d call outcome
  /-- A call returns once. -/
  once : d.answered.Nodup

/-- A sound dispatch is in the state of a worker that carries out one command after the other. -/
theorem Sound.serialized (h : d.Sound initial) : d.Serialized initial where
  places := h.desk.places
  distinct := h.ordered.imp fun {first second} hnumbers => by
    rintro rfl
    exact Nat.lt_irrefl _ (hnumbers rfl)
  dropped := fun hlives => (h.desk.of_isAlive hlives).1
  bounded := h.desk.bounded
  issued := h.subset
  numbers := h.numbers
  ordered := h.ordered
  worker := fun hlives => (h.desk.of_isAlive hlives).2
  log := fun hlives => by
    rw [(h.desk.of_isAlive hlives).2]
    exact initial.operations_performAll _
  bus := h.desk.bus_between
  idle := h.desk.bus_of_idle
  sent := fun client call outcome hclient => by
    obtain ⟨hopen, houtcome⟩ := h.of_sent hclient
    exact ⟨hopen.client, houtcome⟩
  unsent := fun client call hclient => by
    obtain ⟨hopen, haccepted, hunexecuted⟩ := h.of_reply hclient
    exact ⟨hopen.client, haccepted, hunexecuted⟩
  returns := h.returns
  once := h.once

/-- A living worker gets to every accepted command, whatever its clients do meanwhile. -/
structure WorksOff (initial : Worker) (d : Dispatch) : Prop where
  /-- As long as a command is left, the worker has a step to take. -/
  goesOn : d.worker.isAlive = true → d.executed ≠ d.accepted →
    ∃ action, action.isWork = true ∧ (d.step? action).isSome = true
  /-- The accepted commands are executed after as many steps of the worker as they need. -/
  reaches : ∀ later after, d.run later = some after → after.worker.isAlive = true →
    2 * d.accepted.length + (initial.serial (d.accepted.map Call.command)).length ≤
      d.progress + later.countP Action.isWork →
    d.accepted <+: after.executed

/-- While accepted calls are left, a living worker can do the next thing. -/
private theorem exists_work (h : d.Sound initial) (hlives : d.worker.isAlive = true)
    (hleft : d.executed ≠ d.accepted) :
    ∃ action, action.isWork = true ∧ (d.step? action).isSome = true := by
  cases hinHand : d.inHand with
  | some execution =>
    cases hpending : execution.pending with
    | nil =>
      refine ⟨.finish, rfl, ?_⟩
      simp only [step?, hinHand, hpending, Option.isSome_some]
    | cons operation rest =>
      refine ⟨.operate, rfl, ?_⟩
      simp only [step?, hinHand, hpending, Option.isSome_some]
  | none =>
    cases hqueue : d.queue with
    | cons call rest =>
      refine ⟨.take, rfl, ?_⟩
      simp only [step?, hinHand, hqueue, Option.isSome_some]
    | nil =>
      have hplaces := h.desk.places
      rw [(h.desk.of_isAlive hlives).1, hqueue, Desk.current, hinHand] at hplaces
      refine absurd ?_ hleft
      simpa using hplaces.symm

/-- A worker that has not come so far has done less. -/
private theorem progress_lt (h : d.Sound initial) {calls : List Call}
    (hcalls : calls <+: d.accepted) (hshort : d.executed.length < calls.length) :
    d.progress < 2 * calls.length + (initial.serial (calls.map Call.command)).length := by
  -- The command in hand is one of the calls, so everything that was done is for them.
  have hnext : d.accepted.take (d.executed.length + 1) <+: calls := by
    refine List.prefix_of_prefix_length_le (List.take_prefix _ _) hcalls ?_
    rw [List.length_take]
    omega
  have hbus : d.bus.length ≤ (initial.serial (calls.map Call.command)).length :=
    (h.desk.bus_between.2.trans (initial.serial_prefix (hnext.map _))).length_le
  have hcurrent : d.current.length ≤ 1 := by
    rw [Desk.current, List.length_map]
    cases d.inHand with
    | none => exact Nat.zero_le _
    | some execution => exact Nat.le_refl 1
  rw [Desk.progress]
  omega

/-- A worker that stays alive gets to all accepted calls. -/
theorem Sound.worksOff (h : d.Sound initial) (halive : initial.isAlive = true) :
    d.WorksOff initial where
  goesOn := exists_work h
  reaches := by
    intro later after hrun hlives henough
    obtain ⟨hafter, hlater, hprogress⟩ := sound_of_run hrun halive h
    refine List.prefix_of_prefix_length_le hlater.accepted hafter.desk.executed_prefix ?_
    refine Nat.le_of_not_lt fun hshort => ?_
    have hless := progress_lt hafter hlater.accepted hshort
    rw [hprogress hlives] at hless
    omega

/-- Only replies that were sent before return, and everything else fails. -/
private structure Silent (d after : Dispatch) : Prop where
  returned : ∃ new, after.returned = d.returned ++ new ∧ ∀ call outcome, (call, outcome) ∈ new →
    outcome = .error .workerGone ∨ d.clients call.client = .reply call (some outcome)
  sent : ∀ client call outcome, after.clients client = .reply call (some outcome) →
    d.clients client = .reply call (some outcome)

/-- A client gets an answer behind a dead worker. -/
private theorem silent_answer {client : Nat} {call : Call} {outcome : Except Error Answer}
    (h : outcome = .error .workerGone ∨ d.clients call.client = .reply call (some outcome)) :
    Silent d (d.answer client call outcome) := by
  refine ⟨⟨[(call, outcome)], rfl, fun other result hmem => ?_⟩,
    fun other call outcome hclient => ?_⟩
  · obtain ⟨rfl, rfl⟩ := Prod.mk.inj (List.mem_singleton.mp hmem)
    exact h
  · change (if other = client then Waiting.nothing else d.clients other) = _ at hclient
    split at hclient
    · cases hclient
    · exact hclient

/-- A client waits for something that was not sent. -/
private theorem silent_of_clients {client : Nat} {waiting : Waiting}
    (hreturned : after.returned = d.returned)
    (hclients : after.clients = (d.setClient client waiting).clients)
    (h : ∀ call outcome, waiting ≠ .reply call (some outcome)) : Silent d after := by
  refine ⟨⟨[], by rw [hreturned, List.append_nil], fun _ _ hmem => nomatch hmem⟩,
    fun other call outcome hclient => ?_⟩
  rw [hclients] at hclient
  change (if other = client then waiting else d.clients other) = _ at hclient
  split at hclient
  · exact absurd hclient (h call outcome)
  · exact hclient

/-- What a step does behind a dead worker. -/
private theorem Step.silent {action : Action} (h : Step d action after)
    (halive : initial.isAlive = true) (hsound : d.Sound initial)
    (hdead : d.worker.isAlive = false) : Silent d after := by
  obtain ⟨hnone, hempty⟩ := hsound.desk.of_not_isAlive halive hdead
  have hclosed {p : Prop} (hopen : Desk.isOpen d.toDesk = true) : p := by
    rw [Desk.isOpen, hdead] at hopen
    cases hopen
  have hidle {p : Prop} {execution : Execution} (hinHand : d.inHand = some execution) : p := by
    rw [hnone] at hinHand
    cases hinHand
  cases h with
  | issue => exact silent_of_clients rfl rfl fun _ _ => Waiting.noConfusion
  | post _ _ _ hopen => exact hclosed hopen
  | enqueue _ _ _ hopen => exact hclosed hopen
  | refuse => exact silent_answer (.inl rfl)
  | collect client call outcome hclient =>
    obtain rfl := (hsound.of_sent hclient).1.client
    exact silent_answer (.inr hclient)
  | lose => exact silent_answer (.inl rfl)
  | leave => exact silent_of_clients rfl rfl fun _ _ => Waiting.noConfusion
  | take _ _ _ hqueue =>
    rw [hempty] at hqueue
    cases hqueue
  | operate _ _ _ hinHand => exact hidle hinHand
  | finish _ hinHand => exact hidle hinHand
  | die _ hinHand => exact hidle hinHand

/-- Nothing more is sent in two silent parts of a run. -/
private theorem Silent.trans {middle : Dispatch} (first : Silent d middle)
    (second : Silent middle after) : Silent d after := by
  obtain ⟨new, hnew, hreturns⟩ := first.returned
  obtain ⟨more, hmore, hreturns'⟩ := second.returned
  refine ⟨⟨new ++ more, by rw [hmore, hnew, List.append_assoc], fun call outcome hmem => ?_⟩,
    fun client call outcome hclient => first.sent _ _ _ (second.sent _ _ _ hclient)⟩
  rcases List.mem_append.mp hmem with hmem | hmem
  · exact hreturns call outcome hmem
  · exact (hreturns' call outcome hmem).imp_right (first.sent _ _ _)

/-- Behind a dead worker a run returns replies that were sent before, and failures. -/
private theorem silent_of_run {actions : List Action} (h : d.run actions = some after)
    (halive : initial.isAlive = true) (hsound : d.Sound initial)
    (hdead : d.worker.isAlive = false) : Silent d after := by
  induction actions generalizing d with
  | nil =>
    obtain rfl := Option.some.inj h
    exact ⟨⟨[], (List.append_nil _).symm, fun _ _ hmem => nomatch hmem⟩, fun _ _ _ => id⟩
  | cons action rest ih =>
    obtain ⟨middle, hstep, hrest⟩ := run_cons.mp h
    have hstep' := step_of_step? hstep
    have hdead' := ((hstep'.later halive hsound.desk).dead hdead).1
    exact (hstep'.silent halive hsound hdead).trans (ih hrest (hstep'.sound halive hsound) hdead')

/-- A dead worker does nothing more, and every call but those whose reply was sent before fails. -/
structure StaysDead (d : Dispatch) : Prop where
  stays : ∀ later after, d.run later = some after →
    after.worker.isAlive = false ∧ after.bus = d.bus ∧ after.executed = d.executed ∧
      after.accepted = d.accepted
  fails : ∀ later after, d.run later = some after → ∃ new, after.returned = d.returned ++ new ∧
    ∀ call outcome, (call, outcome) ∈ new →
      outcome = .error .workerGone ∨ d.clients call.client = .reply call (some outcome)
  /-- Whoever waits for room or for a reply can learn that the worker is gone. -/
  answers : ∀ client call, d.clients client = .room call ∨ d.clients client = .reply call none →
    ∃ action, d.step? action = some (d.answer client call (.error .workerGone))

/-- A dead worker stays dead, and its bus is left alone. -/
theorem Sound.staysDead (h : d.Sound initial) (halive : initial.isAlive = true)
    (hdead : d.worker.isAlive = false) : d.StaysDead where
  stays := by
    intro later after hrun
    obtain ⟨-, hlater, -⟩ := sound_of_run hrun halive h
    obtain ⟨hafter, haccepted, hexecuted, hbus⟩ := hlater.dead hdead
    exact ⟨hafter, hbus, hexecuted, haccepted⟩
  fails := fun _ _ hrun => (silent_of_run hrun halive h hdead).returned
  answers := by
    intro client call hclient
    rcases hclient with hclient | hclient
    · exact ⟨.refuse client, by simp [step?, hclient, hdead]⟩
    · exact ⟨.lose client, by simp [step?, hclient, hdead]⟩

/-- Whatever steps clients and worker take, the effect is that of the accepted commands one after
the other; a living worker gets to all of them, and a dead one stays dead. -/
theorem serialized_of_run (chip : Chip) (capacity : Nat) (actions : List Action)
    (dispatch : Dispatch) (h : (start chip capacity).run actions = some dispatch) :
    dispatch.Serialized (Worker.start chip) ∧ dispatch.WorksOff (Worker.start chip) ∧
      (dispatch.worker.isAlive = false → dispatch.StaysDead) := by
  have halive : (Worker.start chip).isAlive = true := rfl
  obtain ⟨hsound, -, -⟩ := sound_of_run h halive (Sound.start chip capacity)
  exact ⟨hsound.serialized, hsound.worksOff halive, hsound.staysDead halive⟩

/-- Three clients share a queue with room for one command: a write, a read whose client goes away,
and a reset in the middle of which the worker dies. -/
theorem three_clients_in_turn :
    let chip : Chip := { family := .adau14xx, transport := .memory {}, useSafeload := false }
    let actions : List Action :=
      [.issue 0 (.write 16 [1, 2, 3, 4]), .enqueue 0, .issue 1 (.read 16 4), .take, .enqueue 1,
        .operate, .leave 1, .issue 2 .softReset, .finish, .take, .enqueue 2, .operate, .finish,
        .take, .operate, .die, .lose 2]
    ∃ dispatch, (start chip 1).run actions = some dispatch ∧
      dispatch.executed.map Call.command = [.write 16 [1, 2, 3, 4], .read 16 4] ∧
      (Worker.start chip).serial [.write 16 [1, 2, 3, 4], .read 16 4] <+: dispatch.bus ∧
      dispatch.StaysDead := by
  intro chip actions
  have hdone : ((start chip 1).run actions).map (·.executed.map Call.command) =
      some [.write 16 [1, 2, 3, 4], .read 16 4] := rfl
  have hdies : ((start chip 1).run actions).map (·.worker.isAlive) = some false := rfl
  obtain ⟨dispatch, hrun, hexecuted⟩ := Option.map_eq_some_iff.mp hdone
  rw [hrun] at hdies
  obtain ⟨hserialized, -, hdead⟩ := serialized_of_run chip 1 actions dispatch hrun
  exact ⟨dispatch, hrun, hexecuted, hexecuted ▸ hserialized.bus.1, hdead (Option.some.inj hdies)⟩

end Dispatch

end TuningBridge
