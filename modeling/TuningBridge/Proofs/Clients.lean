import TuningBridge.Proofs.Turn

/-!
# What clients wait for and get

A step relation lists what the steps of clients and worker need and do.  The invariant ties what
each client waits for, and what calls have returned, to the commands that the worker has executed: a
reply is the outcome that its call has at its place among them.
-/

namespace TuningBridge

namespace Dispatch

/-- What a step needs and does. -/
inductive Step (d : Dispatch) : Action → Dispatch → Prop
  | issue (client : Nat) (command : Command) (hclient : d.clients client = .nothing) :
      Step d (.issue client command) (d.propose ⟨d.issued.length, client, command⟩)
  | post (client : Nat) (call : Call) (hclient : d.clients client = .room call)
      (hopen : d.isOpen = true)
      (hunanswered : call.command.isUnanswered = true) :
      Step d (.enqueue client) ({ d with toDesk := d.accept call }.answer client call (.ok .done))
  | enqueue (client : Nat) (call : Call) (hclient : d.clients client = .room call)
      (hopen : d.isOpen = true)
      (hanswered : call.command.isUnanswered = false) :
      Step d (.enqueue client)
        ({ d with toDesk := d.accept call }.setClient client (.reply call none))
  | refuse (client : Nat) (call : Call) (hclient : d.clients client = .room call)
      (hdead : d.worker.isAlive = false) :
      Step d (.refuse client) (d.answer client call (.error .workerGone))
  | collect (client : Nat) (call : Call) (outcome : Except Error Answer)
      (hclient : d.clients client = .reply call (some outcome)) :
      Step d (.collect client) (d.answer client call outcome)
  | lose (client : Nat) (call : Call) (hclient : d.clients client = .reply call none)
      (hdead : d.worker.isAlive = false) :
      Step d (.lose client) (d.answer client call (.error .workerGone))
  | leave (client : Nat) : Step d (.leave client) (d.setClient client .nothing)
  | take (call : Call) (rest : List Call) (hidle : d.inHand = none)
      (hqueue : d.queue = call :: rest) :
      Step d .take { d with toDesk := d.take call rest }
  | operate (execution : Execution) (operation : BusOperation) (rest : List BusOperation)
      (hinHand : d.inHand = some execution) (hpending : execution.pending = operation :: rest) :
      Step d .operate { d with toDesk := d.operate execution operation rest }
  | finish (execution : Execution) (hinHand : d.inHand = some execution)
      (hpending : execution.pending = []) :
      Step d .finish
        ({ d with toDesk := d.finish execution }.deliver execution.call execution.outcome)
  | die (execution : Execution) (hinHand : d.inHand = some execution) :
      Step d .die { d with toDesk := d.die execution }

/-- A step that can be done is one of the relation. -/
theorem step_of_step? {d after : Dispatch} {action : Action} (h : d.step? action = some after) :
    Step d action after := by
  cases action with
  | issue client command =>
    rw [step?] at h
    split at h
    · next hclient => exact Option.some.inj h ▸ .issue client command hclient
    · cases h
  | enqueue client =>
    rw [step?] at h
    split at h
    · next call hclient =>
      split at h
      · next hopen =>
        dsimp only at h
        split at h
        · next hunanswered => exact Option.some.inj h ▸ .post client call hclient hopen hunanswered
        · next hanswered =>
          exact Option.some.inj h ▸ .enqueue client call hclient hopen
            (Bool.not_eq_true _ ▸ hanswered)
      · cases h
    · cases h
  | refuse client =>
    rw [step?] at h
    split at h
    · next call hclient =>
      split at h
      · cases h
      · next hdead =>
          exact Option.some.inj h ▸ .refuse client call hclient (Bool.not_eq_true _ ▸ hdead)
    · cases h
  | collect client =>
    rw [step?] at h
    split at h
    · next call outcome hclient => exact Option.some.inj h ▸ .collect client call outcome hclient
    · cases h
  | lose client =>
    rw [step?] at h
    split at h
    · next call hclient =>
      split at h
      · cases h
      · next hdead =>
          exact Option.some.inj h ▸ .lose client call hclient (Bool.not_eq_true _ ▸ hdead)
    · cases h
  | leave client =>
    rw [step?] at h
    split at h
    · cases h
    · exact Option.some.inj h ▸ .leave client
  | take =>
    rw [step?] at h
    split at h
    · next call rest hidle hqueue => exact Option.some.inj h ▸ .take call rest hidle hqueue
    · cases h
  | operate =>
    rw [step?] at h
    split at h
    · next execution hinHand =>
      split at h
      · next operation rest hpending =>
        exact Option.some.inj h ▸ .operate execution operation rest hinHand hpending
      · cases h
    · cases h
  | finish =>
    rw [step?] at h
    split at h
    · next execution hinHand =>
      split at h
      · next hpending => exact Option.some.inj h ▸ .finish execution hinHand hpending
      · cases h
    · cases h
  | die =>
    rw [step?] at h
    split at h
    · next execution hinHand => exact Option.some.inj h ▸ .die execution hinHand
    · cases h

/-- Every step leads to a later state. -/
theorem Step.later {initial : Worker} {d after : Dispatch} {action : Action}
    (h : Step d action after) (halive : initial.isAlive = true) (hsound : d.toDesk.Sound initial) :
    d.Later after.toDesk := by
  -- Only a living worker accepts, operates and finishes.
  have hno {p : Prop} (hlives : d.worker.isAlive = true) (hdead : d.worker.isAlive = false) :
      p := by
    rw [hlives] at hdead
    cases hdead
  cases h with
  | issue => exact .refl d.toDesk
  | post _ call _ hopen =>
    exact ⟨List.prefix_append _ _, List.prefix_rfl, hno (Bool.and_eq_true_iff.mp hopen).1⟩
  | enqueue _ call _ hopen =>
    exact ⟨List.prefix_append _ _, List.prefix_rfl, hno (Bool.and_eq_true_iff.mp hopen).1⟩
  | refuse => exact .refl d.toDesk
  | collect => exact .refl d.toDesk
  | lose => exact .refl d.toDesk
  | leave => exact .refl d.toDesk
  | take call rest hidle hqueue =>
    exact ⟨List.prefix_rfl, List.prefix_rfl, fun hdead => ⟨hdead, rfl, rfl, rfl⟩⟩
  | operate _ _ _ hinHand =>
    exact ⟨List.prefix_rfl, List.prefix_rfl, hno (hsound.isAlive_of_inHand halive hinHand)⟩
  | finish _ hinHand =>
    exact ⟨List.prefix_rfl, List.prefix_append _ _, hno (hsound.isAlive_of_inHand halive hinHand)⟩
  | die => exact ⟨List.prefix_rfl, List.prefix_rfl, fun _ => ⟨rfl, rfl, rfl, rfl⟩⟩

/-- The worker's side of the invariant is kept. -/
theorem Step.sound_desk {initial : Worker} {d after : Dispatch} {action : Action}
    (h : Step d action after) (hsound : d.toDesk.Sound initial) : after.toDesk.Sound initial := by
  cases h with
  | issue => exact hsound
  | post _ call _ hopen => exact hsound.accept hopen call
  | enqueue _ call _ hopen => exact hsound.accept hopen call
  | refuse => exact hsound
  | collect => exact hsound
  | lose => exact hsound
  | leave => exact hsound
  | take call rest hidle hqueue => exact hsound.take hidle hqueue
  | operate _ _ _ hinHand hpending => exact hsound.operate hinHand hpending
  | finish _ hinHand hpending => exact hsound.finish hinHand hpending
  | die _ hinHand => exact hsound.die hinHand

/-- A living worker gets on with each step of its work, and with no other step. -/
theorem Step.progress {d after : Dispatch} {action : Action} (h : Step d action after)
    (hlives : after.worker.isAlive = true) : after.progress = d.progress + action.isWork.toNat := by
  cases h with
  | take call rest hidle hqueue =>
    simp [Desk.progress, Desk.take, Desk.current, hidle, Action.isWork]
    omega
  | operate execution operation rest hinHand =>
    simp [Desk.progress, Desk.operate, Desk.current, hinHand, Action.isWork]
    omega
  | finish execution hinHand =>
    simp [Desk.progress, Desk.finish, deliver, Desk.current, hinHand, Action.isWork]
    omega
  | die => cases hlives
  | _ => rfl

end Dispatch

/-- An outcome is the one of a call at its place among the executed ones. -/
def Call.IsOutcome (initial : Worker) (executed : List Call) (call : Call)
    (outcome : Except Error Answer) : Prop :=
  ∃ before rest, executed = before ++ call :: rest ∧
    outcome = ((initial.performAll (before.map Call.command)).perform call.command).1

namespace Call.IsOutcome

variable {initial : Worker} {executed : List Call} {call : Call} {outcome : Except Error Answer}

theorem mono {later : List Call} (h : IsOutcome initial executed call outcome)
    (hlater : executed <+: later) : IsOutcome initial later call outcome := by
  obtain ⟨before, rest, rfl, houtcome⟩ := h
  obtain ⟨more, rfl⟩ := hlater
  exact ⟨before, rest ++ more, by simp, houtcome⟩

end Call.IsOutcome

namespace Dispatch

variable {initial : Worker} {d after : Dispatch} {client : Nat} {call : Call}
  {outcome : Except Error Answer}

/-- The calls that have returned. -/
def answered (d : Dispatch) : List Call := d.returned.map Prod.fst

/-- What a call may return. -/
inductive Returns (initial : Worker) (d : Dispatch) (call : Call) : Except Error Answer → Prop
  | executed (outcome : Except Error Answer) (h : call.IsOutcome initial d.executed outcome) :
      Returns initial d call outcome
  | queued (hunanswered : call.command.isUnanswered = true) (haccepted : call ∈ d.accepted) :
      Returns initial d call (.ok .done)
  | lost (hdead : d.worker.isAlive = false) (hunexecuted : call ∉ d.executed) :
      Returns initial d call (.error .workerGone)

/-- A call has returned to nobody, and a client stands behind it. -/
structure IsOpen (d : Dispatch) (client : Nat) (call : Call) : Prop where
  issued : call ∈ d.issued
  client : call.client = client
  unanswered : call ∉ d.answered

/-- What a client waits for agrees with what has become of its call. -/
inductive Waits (initial : Worker) (d : Dispatch) (client : Nat) : Waiting → Prop
  | nothing : Waits initial d client .nothing
  | room (call : Call) (h : d.IsOpen client call)
      (hlast : ∀ other ∈ d.accepted, other.client = client → other.number < call.number) :
      Waits initial d client (.room call)
  | reply (call : Call) (h : d.IsOpen client call) (haccepted : call ∈ d.accepted)
      (hunexecuted : call ∉ d.executed) : Waits initial d client (.reply call none)
  | sent (call : Call) (outcome : Except Error Answer) (h : d.IsOpen client call)
      (haccepted : call ∈ d.accepted) (houtcome : call.IsOutcome initial d.executed outcome) :
      Waits initial d client (.reply call (some outcome))

/-- The invariant of clients and worker. -/
structure Sound (initial : Worker) (d : Dispatch) : Prop where
  desk : d.toDesk.Sound initial
  /-- Calls are numbered as they are issued. -/
  numbers : d.issued.map Call.number = List.range d.issued.length
  subset : d.accepted ⊆ d.issued
  /-- The commands of one client go into the queue as it issues them. -/
  ordered : d.accepted.Pairwise fun first second =>
    first.client = second.client → first.number < second.number
  waits : ∀ client, Waits initial d client (d.clients client)
  issued_of_answered : ∀ call ∈ d.answered, call ∈ d.issued
  once : d.answered.Nodup
  returns : ∀ call outcome, (call, outcome) ∈ d.returned → Returns initial d call outcome

theorem Returns.mono (h : Returns initial d call outcome) (hlater : d.Later after.toDesk) :
    Returns initial after call outcome := by
  cases h with
  | executed outcome h => exact .executed outcome (h.mono hlater.executed)
  | queued hunanswered haccepted => exact .queued hunanswered (hlater.accepted.subset haccepted)
  | lost hdead hunexecuted =>
    obtain ⟨hdead', _, hexecuted, _⟩ := hlater.dead hdead
    refine .lost hdead' ?_
    rw [hexecuted]
    exact hunexecuted

/-- Nothing happens to the calls of a client. -/
structure Spares (d after : Dispatch) (client : Nat) : Prop where
  issued : d.issued ⊆ after.issued
  accepted : ∀ call, call.client = client → (call ∈ after.accepted ↔ call ∈ d.accepted)
  executed : after.executed = d.executed
  answered : ∀ call, call.client = client → call ∈ after.answered → call ∈ d.answered

namespace Spares

theorem isOpen (h : Spares d after client) (hopen : d.IsOpen client call) :
    after.IsOpen client call where
  issued := h.issued hopen.issued
  client := hopen.client
  unanswered := fun hanswered => hopen.unanswered (h.answered call hopen.client hanswered)

theorem waits {waiting : Waiting} (h : Spares d after client)
    (hwaits : Waits initial d client waiting) : Waits initial after client waiting := by
  cases hwaits with
  | nothing => exact .nothing
  | room call hopen hlast =>
    exact .room call (h.isOpen hopen) fun other hother hclient =>
      hlast other ((h.accepted other hclient).mp hother) hclient
  | reply call hopen haccepted hunexecuted =>
    exact .reply call (h.isOpen hopen) ((h.accepted call hopen.client).mpr haccepted)
      (h.executed ▸ hunexecuted)
  | sent call outcome hopen haccepted houtcome =>
    exact .sent call outcome (h.isOpen hopen) ((h.accepted call hopen.client).mpr haccepted)
      (h.executed ▸ houtcome)

end Spares

namespace Sound

theorem start (chip : Chip) (capacity : Nat) :
    Sound (Worker.start chip) (.start chip capacity) where
  desk := .start chip _
  numbers := rfl
  subset := List.Subset.refl _
  ordered := .nil
  waits := fun _ => .nothing
  issued_of_answered := fun _ h => nomatch h
  once := .nil
  returns := fun _ _ h => nomatch h

/-- What happens to the calls of clients that wait for nothing concerns nobody. -/
private theorem waits_of_spares (h : d.Sound initial) (hclients : after.clients = d.clients)
    (hspares : ∀ client, d.clients client ≠ .nothing → Spares d after client) (client : Nat) :
    Waits initial after client (after.clients client) := by
  rw [hclients]
  by_cases hnothing : d.clients client = .nothing
  · rw [hnothing]
    exact .nothing
  · exact (hspares client hnothing).waits (h.waits client)

/-- A client waits for something else. -/
theorem setClient {waiting : Waiting} (h : d.Sound initial)
    (hwaits : Waits initial d client waiting) : (d.setClient client waiting).Sound initial := by
  have hspares (other : Nat) : Spares d (d.setClient client waiting) other :=
    ⟨List.Subset.refl _, fun _ _ => .rfl, rfl, fun _ _ => id⟩
  refine ⟨h.desk, h.numbers, h.subset, h.ordered, fun other => ?_, h.issued_of_answered, h.once,
    fun call outcome hreturned => (h.returns call outcome hreturned).mono (.refl d.toDesk)⟩
  show Waits initial _ other (if other = client then waiting else d.clients other)
  by_cases hother : other = client
  · rw [if_pos hother, hother]
    exact (hspares client).waits hwaits
  · rw [if_neg hother]
    exact (hspares other).waits (h.waits other)

/-- A new call gets the next number. -/
theorem issue (h : d.Sound initial) (hnumber : call.number = d.issued.length) :
    Sound initial { d with issued := d.issued ++ [call] } := by
  have hspares (client : Nat) : Spares d { d with issued := d.issued ++ [call] } client :=
    ⟨List.subset_append_left _ _, fun _ _ => .rfl, rfl, fun _ _ => id⟩
  refine ⟨h.desk, ?_, fun other hother => List.mem_append_left _ (h.subset hother), h.ordered,
    fun client => (hspares client).waits (h.waits client),
    fun other hother => List.mem_append_left _ (h.issued_of_answered other hother), h.once,
    fun other outcome hreturned => (h.returns other outcome hreturned).mono (.refl d.toDesk)⟩
  rw [List.map_append, h.numbers, List.length_append, List.map_singleton, hnumber]
  exact List.range_succ.symm

/-- The numbers of calls are below the number of the next one. -/
theorem number_lt (h : d.Sound initial) (hissued : call ∈ d.issued) :
    call.number < d.issued.length := by
  have hnumber : call.number ∈ d.issued.map Call.number := List.mem_map_of_mem hissued
  rw [h.numbers, List.mem_range] at hnumber
  exact hnumber

/-- A call that is the last one of its client goes into the queue. -/
theorem accept (h : d.Sound initial) (hopen : Desk.isOpen d.toDesk = true)
    (hissued : call ∈ d.issued)
    (hlast : ∀ other ∈ d.accepted, other.client = call.client → other.number < call.number)
    (hclient : d.clients call.client = .nothing) :
    Sound initial { d with toDesk := d.accept call } := by
  have hlater : d.Later (d.accept call) := by
    refine ⟨List.prefix_append _ _, List.prefix_rfl, fun hdead => ?_⟩
    rw [Desk.isOpen, hdead] at hopen
    cases hopen
  refine ⟨h.desk.accept hopen call, h.numbers, ?_, ?_, h.waits_of_spares rfl ?_,
    h.issued_of_answered, h.once,
    fun other outcome hreturned => (h.returns other outcome hreturned).mono hlater⟩
  · refine List.append_subset.mpr ⟨h.subset, fun other hother => ?_⟩
    obtain rfl := List.mem_singleton.mp hother
    exact hissued
  · refine List.pairwise_append.mpr
      ⟨h.ordered, List.pairwise_singleton _ _, fun other hother last hmem => ?_⟩
    rw [List.mem_singleton.mp hmem]
    exact hlast other hother
  · refine fun client hwaiting => ⟨List.Subset.refl _, fun other hother => ?_, rfl, fun _ _ => id⟩
    have hne : other ≠ call := by
      rintro rfl
      exact hwaiting (hother ▸ hclient)
    show other ∈ d.accepted ++ [call] ↔ other ∈ d.accepted
    rw [List.mem_append, List.mem_singleton, or_iff_left hne]

/-- A call for whose return nobody waits any more returns. -/
theorem settle (h : d.Sound initial) (hissued : call ∈ d.issued) (hopen : call ∉ d.answered)
    (hreturns : Returns initial d call outcome) (hclient : d.clients call.client = .nothing) :
    Sound initial { d with returned := d.returned ++ [(call, outcome)] } := by
  let after : Dispatch := { d with returned := d.returned ++ [(call, outcome)] }
  have hanswered : after.answered = d.answered ++ [call] := List.map_append
  refine ⟨h.desk, h.numbers, h.subset, h.ordered, h.waits_of_spares rfl ?_, ?_, ?_, ?_⟩
  · refine fun client hwaiting =>
      ⟨List.Subset.refl _, fun _ _ => .rfl, rfl, fun other hother hmem => ?_⟩
    have hne : other ≠ call := by
      rintro rfl
      exact hwaiting (hother ▸ hclient)
    rw [hanswered, List.mem_append, List.mem_singleton, or_iff_left hne] at hmem
    exact hmem
  · rw [hanswered]
    intro other hother
    rcases List.mem_append.mp hother with hother | hother
    · exact h.issued_of_answered other hother
    · rw [List.mem_singleton.mp hother]
      exact hissued
  · rw [hanswered]
    refine List.nodup_append.mpr
      ⟨h.once, List.pairwise_singleton _ _, fun other hother last hmem => ?_⟩
    rw [List.mem_singleton.mp hmem]
    rintro rfl
    exact hopen hother
  · intro other result hmem
    rcases List.mem_append.mp hmem with hmem | hmem
    · exact (h.returns other result hmem).mono (.refl d.toDesk)
    · obtain ⟨rfl, rfl⟩ := Prod.mk.inj (List.mem_singleton.mp hmem)
      exact hreturns.mono (.refl d.toDesk)

/-- A call returns to the client who stands behind it. -/
theorem answer (h : d.Sound initial) (hopen : d.IsOpen client call)
    (hreturns : Returns initial d call outcome) : (d.answer client call outcome).Sound initial := by
  have hclient : (d.setClient client .nothing).clients call.client = .nothing := by
    rw [hopen.client]
    exact if_pos rfl
  exact (h.setClient .nothing).settle hopen.issued hopen.unanswered
    (hreturns.mono (.refl d.toDesk)) hclient

/-- The worker gets on without taking or finishing a call. -/
theorem work {desk : Desk} (h : d.Sound initial) (hdesk : desk.Sound initial)
    (hlater : d.Later desk) (haccepted : desk.accepted = d.accepted)
    (hexecuted : desk.executed = d.executed) : Sound initial { d with toDesk := desk } := by
  have hspares (client : Nat) : Spares d { d with toDesk := desk } client := by
    refine ⟨List.Subset.refl _, fun call _ => ?_, hexecuted, fun _ _ => id⟩
    rw [← haccepted]
  refine ⟨hdesk, h.numbers, ?_, ?_, fun client => (hspares client).waits (h.waits client),
    h.issued_of_answered, h.once,
    fun call outcome hreturned => (h.returns call outcome hreturned).mono hlater⟩
  · show desk.accepted ⊆ d.issued
    rw [haccepted]
    exact h.subset
  · show desk.accepted.Pairwise _
    rw [haccepted]
    exact h.ordered

/-- The outcome of the command in hand is the one of its call at its place. -/
theorem isOutcome_finish (h : d.Sound initial) {execution : Execution}
    (hinHand : d.inHand = some execution) :
    execution.call.IsOutcome initial (d.executed ++ [execution.call]) execution.outcome := by
  obtain ⟨done, hexecution, _, hworker, _⟩ := h.desk.of_inHand hinHand
  refine ⟨d.executed, [], rfl, ?_⟩
  rw [hexecution, ← hworker]
  rfl

/-- The command in hand is executed, and its reply goes to whoever waits for it. -/
theorem finish (h : d.Sound initial) (halive : initial.isAlive = true) {execution : Execution}
    (hinHand : d.inHand = some execution) (hpending : execution.pending = []) :
    Sound initial
      ({ d with toDesk := d.finish execution }.deliver execution.call execution.outcome) := by
  have hlives := h.desk.isAlive_of_inHand halive hinHand
  have hgrows : d.executed <+: d.executed ++ [execution.call] := List.prefix_append _ _
  have hlater : d.Later (d.finish execution) := by
    refine ⟨List.prefix_rfl, hgrows, fun hdead => ?_⟩
    rw [hlives] at hdead
    cases hdead
  refine ⟨h.desk.finish hinHand hpending, h.numbers, h.subset, h.ordered, fun client => ?_,
    h.issued_of_answered, h.once,
    fun call outcome hreturned => (h.returns call outcome hreturned).mono hlater⟩
  show Waits initial _ client ((d.clients client).receive execution.call execution.outcome)
  have hwaits := h.waits client
  generalize d.clients client = waiting at hwaits ⊢
  cases hwaits with
  | nothing => exact .nothing
  | room call hopen hlast => exact .room call ⟨hopen.issued, hopen.client, hopen.unanswered⟩ hlast
  | reply call hopen haccepted hunexecuted =>
    by_cases hcall : call = execution.call
    · rw [Waiting.receive, if_pos hcall]
      refine .sent call _ ⟨hopen.issued, hopen.client, hopen.unanswered⟩ haccepted ?_
      rw [hcall]
      exact h.isOutcome_finish hinHand
    · rw [Waiting.receive, if_neg hcall]
      refine .reply call ⟨hopen.issued, hopen.client, hopen.unanswered⟩ haccepted fun hmem => ?_
      rcases List.mem_append.mp hmem with hmem | hmem
      · exact hunexecuted hmem
      · exact hcall (List.mem_singleton.mp hmem)
  | sent call outcome hopen haccepted houtcome =>
    exact .sent call outcome ⟨hopen.issued, hopen.client, hopen.unanswered⟩ haccepted
      (houtcome.mono hgrows)

end Sound

theorem setClient_setClient (d : Dispatch) (client : Nat) (first second : Waiting) :
    (d.setClient client first).setClient client second = d.setClient client second := by
  have hclients : (fun other => if other = client then second else
      (d.setClient client first).clients other) = (d.setClient client second).clients := by
    funext other
    by_cases hother : other = client
    · simp [setClient, hother]
    · simp [setClient, hother]
  exact congrArg (fun clients => { d with clients }) hclients

namespace Sound

/-- The call of a client that waits for room is the last one of the client. -/
theorem of_room (h : d.Sound initial) (hclient : d.clients client = .room call) :
    d.IsOpen client call ∧
    (∀ other ∈ d.accepted, other.client = client → other.number < call.number) ∧
      call ∉ d.executed := by
  have hwaits := h.waits client
  rw [hclient] at hwaits
  cases hwaits with
  | room _ hopen hlast =>
    refine ⟨hopen, hlast, fun hexecuted => ?_⟩
    exact Nat.lt_irrefl _ (hlast call (h.desk.executed_prefix.subset hexecuted) hopen.client)

/-- The call of a client that waits for a reply is in the queue or in hand, or it is lost. -/
theorem of_reply (h : d.Sound initial) (hclient : d.clients client = .reply call none) :
    d.IsOpen client call ∧ call ∈ d.accepted ∧ call ∉ d.executed := by
  have hwaits := h.waits client
  rw [hclient] at hwaits
  cases hwaits with
  | reply _ hopen haccepted hunexecuted => exact ⟨hopen, haccepted, hunexecuted⟩

/-- The reply that was sent to a client is the outcome of its call. -/
theorem of_sent (h : d.Sound initial) (hclient : d.clients client = .reply call (some outcome)) :
    d.IsOpen client call ∧ call.IsOutcome initial d.executed outcome := by
  have hwaits := h.waits client
  rw [hclient] at hwaits
  cases hwaits with
  | sent _ _ hopen _ houtcome => exact ⟨hopen, houtcome⟩

/-- The call of a client goes into the queue, and the client waits for nothing for a moment. -/
private theorem enqueue (h : d.Sound initial) (hclient : d.clients client = .room call)
    (hopen : Desk.isOpen d.toDesk = true) :
    Sound initial { d.setClient client .nothing with toDesk := d.accept call } := by
  obtain ⟨hcall, hlast, _⟩ := h.of_room hclient
  obtain rfl := hcall.client
  exact (h.setClient .nothing).accept hopen hcall.issued hlast (if_pos rfl)

/-- A client offers a command. -/
private theorem propose (h : d.Sound initial) (hnumber : call.number = d.issued.length) :
    (d.propose call).Sound initial := by
  have hfresh : call ∉ d.issued := fun hissued => Nat.ne_of_lt (h.number_lt hissued) hnumber
  refine (h.issue hnumber).setClient (.room call ⟨?_, rfl, ?_⟩ ?_)
  · exact List.mem_append_right _ (List.mem_singleton_self call)
  · exact fun hanswered => hfresh (h.issued_of_answered call hanswered)
  · intro other hother _
    rw [hnumber]
    exact h.number_lt (h.subset hother)

end Sound

/-- Every step keeps the invariant. -/
theorem Step.sound {action : Action} (h : Step d action after) (halive : initial.isAlive = true)
    (hsound : d.Sound initial) : after.Sound initial := by
  -- What the worker's side gives has to be taken before the step is split.
  have hlater := h.later halive hsound.desk
  have hdesk := h.sound_desk hsound.desk
  cases h with
  | issue client command => exact hsound.propose rfl
  | post client call hclient hopen hunanswered =>
    obtain ⟨hcall, _⟩ := hsound.of_room hclient
    obtain rfl := hcall.client
    -- The call is queued while nobody waits for it, and returns right behind that.
    exact (hsound.enqueue hclient hopen).settle hcall.issued hcall.unanswered
      (.queued hunanswered (List.mem_append_right _ (List.mem_singleton_self call))) (if_pos rfl)
  | enqueue client call hclient hopen =>
    obtain ⟨hcall, _, hunexecuted⟩ := hsound.of_room hclient
    rw [← setClient_setClient _ client .nothing]
    exact (hsound.enqueue hclient hopen).setClient
      (.reply call ⟨hcall.issued, hcall.client, hcall.unanswered⟩
        (List.mem_append_right _ (List.mem_singleton_self call)) hunexecuted)
  | refuse client call hclient hdead =>
    obtain ⟨hcall, _, hunexecuted⟩ := hsound.of_room hclient
    exact hsound.answer hcall (.lost hdead hunexecuted)
  | collect client call outcome hclient =>
    obtain ⟨hcall, houtcome⟩ := hsound.of_sent hclient
    exact hsound.answer hcall (.executed outcome houtcome)
  | lose client call hclient hdead =>
    obtain ⟨hcall, _, hunexecuted⟩ := hsound.of_reply hclient
    exact hsound.answer hcall (.lost hdead hunexecuted)
  | leave client => exact hsound.setClient .nothing
  | take => exact hsound.work hdesk hlater rfl rfl
  | operate => exact hsound.work hdesk hlater rfl rfl
  | finish execution hinHand hpending => exact hsound.finish halive hinHand hpending
  | die => exact hsound.work hdesk hlater rfl rfl

end Dispatch

end TuningBridge
