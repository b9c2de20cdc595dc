import TuningBridge.Proofs.Action
import TuningBridge.Worker

/-!
# What commands add to a chip

A command may do more on the way to the registers, but it takes nothing back of what was done
before, and it keeps the family of the chip.  This is proved once for the accesses of the transport
and carried through sequences, loops and handlers to every command.
-/

namespace TuningBridge

/-- A later state of the same chip. -/
structure Chip.Grows (before after : Chip) : Prop where
  family : after.family = before.family
  operations : before.transport.operations <+: after.transport.operations

namespace Chip.Grows

/-- A chip is a later state of itself. -/
theorem refl (chip : Chip) : chip.Grows chip := ⟨rfl, List.prefix_rfl⟩

/-- Later than later is later. -/
theorem trans {before middle after : Chip} (first : before.Grows middle)
    (second : middle.Grows after) : before.Grows after :=
  ⟨second.family.trans first.family, first.operations.trans second.operations⟩

end Chip.Grows

namespace Bank

/-- Recording an access changes no register. -/
@[simp] theorem registers_record (bank : Bank) (access : BankAccess) :
    (bank.record access).registers = bank.registers := by
  rw [record]
  split <;> rfl

/-- Recording an access does not change whether reads fail. -/
@[simp] theorem failsReads_record (bank : Bank) (access : BankAccess) :
    (bank.record access).failsReads = bank.failsReads := by
  rw [record]
  split <;> rfl

@[simp] theorem recording_record (bank : Bank) (access : BankAccess) :
    (bank.record access).recording = bank.recording := by
  rw [record]
  split <;> rfl

/-- An access is kept at the end, if recording is on. -/
theorem accesses_record (bank : Bank) (access : BankAccess) : (bank.record access).accesses.toList =
    bank.accesses.toList ++ if bank.recording then [access] else [] := by
  rw [record]
  split <;> simp

/-- All that a read does to a bank is to be recorded. -/
theorem read_snd (bank : Bank) (address : UInt16) (length : Nat) :
    (bank.read address length).2 = bank.record (.read address length) := by
  rw [read]
  split <;> rfl

end Bank

namespace Transport

/-- A bank records at the end. -/
private theorem prefix_record (bank : Bank) (access : BankAccess) :
    bank.accesses.toList <+: (bank.record access).accesses.toList :=
  ⟨_, (bank.accesses_record access).symm⟩

/-- A transaction is put behind the traffic so far. -/
private theorem traffic_perform (wire : Wire) (transaction : Transaction) :
    wire.traffic.toList <+: (wire.perform transaction).2.traffic.toList := by
  simp [Wire.perform]

/-- Transactions up to the first failure are put behind the traffic so far. -/
private theorem traffic_performWhile (wire : Wire) (done : Nat) (transactions : List Transaction) :
    wire.traffic.toList <+: (wire.performWhile done transactions).2.traffic.toList := by
  induction transactions generalizing wire done with
  | nil => exact List.prefix_rfl
  | cons transaction rest ih =>
    have hfirst := traffic_perform wire transaction
    rw [Wire.performWhile]
    split
    · next next hperform =>
      rw [hperform] at hfirst
      exact hfirst.trans (ih next (done + 1))
    · next next hperform =>
      rw [hperform] at hfirst
      exact hfirst

/-- Taking a reply is no traffic. -/
private theorem traffic_answer (wire : Wire) (length : Nat) :
    (wire.answer length).2.traffic = wire.traffic := by
  rw [Wire.answer]
  split <;> rfl

/-- A write takes no operation back, on a register bank and on a bus. -/
theorem operations_write (transport : Transport) (address : UInt16) (data : Bytes) :
    transport.operations <+: (transport.write address data).2.operations := by
  cases transport with
  | memory bank =>
    exact (prefix_record (bank.preload address data) (.write address data)).map BusOperation.access
  | bus port words wire => exact (traffic_performWhile wire 0 _).map BusOperation.transfer

/-- A read takes no operation back, whether it succeeds or fails. -/
theorem operations_read (transport : Transport) (address : UInt16) (length : Nat) :
    transport.operations <+: (transport.read address length).2.2.operations := by
  cases transport with
  | memory bank =>
    have hread : (read (memory bank) address length).2.2 = .memory (bank.read address length).2 :=
      rfl
    rw [hread, Bank.read_snd]
    exact (prefix_record bank (.read address length)).map BusOperation.access
  | bus port words wire =>
    have hperform := (traffic_perform wire (port.reading address length)).map BusOperation.transfer
    rw [read]
    split
    · next next heq =>
      rw [heq] at hperform
      simpa [operations, traffic_answer] using hperform
    · next next heq =>
      rw [heq] at hperform
      exact hperform

end Transport

/-- The chip after a read, whether the read succeeds or fails. -/
def Chip.afterRead (chip : Chip) (address : UInt16) (length : Nat) : Chip :=
  { chip with
    transport := (chip.transport.read address length).2.2
    journal := chip.journal ++ (chip.transport.read address length).2.1 }

@[simp] theorem Chip.family_afterRead (chip : Chip) (address : UInt16) (length : Nat) :
    (chip.afterRead address length).family = chip.family := rfl

@[simp] theorem Chip.scale_afterRead (chip : Chip) (address : UInt16) (length : Nat) :
    (chip.afterRead address length).scale = chip.scale := rfl

namespace ChipM

/-- The state in which an action ends, whether it succeeds or fails. -/
def final {α : Type} (action : ChipM α) (chip : Chip) : Chip :=
  match action.run chip with
  | .ok _ after => after
  | .error _ after => after

/-- An action only adds to what was done. -/
def OnlyAdds {α : Type} (action : ChipM α) : Prop := ∀ chip : Chip, chip.Grows (final action chip)

section

variable {α β : Type}

/-- An action that succeeds ends in the state behind it. -/
theorem final_of_ok {action : ChipM α} {chip after : Chip} {value : α}
    (h : action.run chip = .ok value after) : final action chip = after := by
  rw [final, h]

/-- An action that fails ends in the state in which it failed. -/
theorem final_of_error {action : ChipM α} {chip after : Chip} {error : Error}
    (h : action.run chip = .error error after) : final action chip = after := by
  rw [final, h]

namespace OnlyAdds

theorem pure (value : α) : OnlyAdds (pure value) := fun chip => .refl chip

theorem throw (error : Error) : OnlyAdds (throw error : ChipM α) := fun chip => .refl chip

theorem get : OnlyAdds get := fun chip => .refl chip

theorem ofExcept (result : Except Error α) : OnlyAdds (MonadExcept.ofExcept result) := by
  cases result with
  | ok value => exact pure value
  | error error => exact throw error

/-- A change that leaves the family and the transport alone adds nothing. -/
theorem modify {change : Chip → Chip} (h : ∀ chip : Chip, chip.Grows (change chip)) :
    OnlyAdds (modify change) := h

/-- Actions in sequence only add if both do; a failure of the first one ends the sequence. -/
theorem bind {action : ChipM α} {rest : α → ChipM β} (h : OnlyAdds action)
    (h' : ∀ value, OnlyAdds (rest value)) : OnlyAdds (action >>= rest) := by
  intro chip
  have hfirst := h chip
  cases hrun : action.run chip with
  | ok value after =>
    rw [final_of_ok hrun] at hfirst
    have hrest : final (action >>= rest) chip = final (rest value) after := by
      rw [final, Actions.run_bind_ok hrun, final]
    rw [hrest]
    exact hfirst.trans (h' value after)
  | error error after =>
    rw [final_of_error hrun] at hfirst
    rwa [final_of_error (Actions.run_bind_error hrun rest)]

/-- An action with a handler only adds if both do. -/
theorem tryCatch {action : ChipM α} {handle : Error → ChipM α} (h : OnlyAdds action)
    (h' : ∀ error, OnlyAdds (handle error)) : OnlyAdds (tryCatch action handle) := by
  intro chip
  have hfirst := h chip
  cases hrun : action.run chip with
  | ok value after =>
    rw [final_of_ok hrun] at hfirst
    rwa [final_of_ok (Actions.run_tryCatch_ok hrun handle)]
  | error error after =>
    rw [final_of_error hrun] at hfirst
    have hrest : final (MonadExcept.tryCatch action handle) chip = final (handle error) after := by
      rw [final, Actions.run_tryCatch_error hrun, final]
    rw [hrest]
    exact hfirst.trans (h' error after)

/-- A check that fails takes nothing back. -/
theorem refuse {condition : Prop} [Decidable condition] {error : Error} {action : ChipM α}
    (h : OnlyAdds action) :
    OnlyAdds (if condition then (MonadExcept.throw error : ChipM PUnit) >>= fun _ => action
      else action) := by
  split
  · exact (throw error).bind fun _ => h
  · exact h

/-- A check that has to hold takes nothing back. -/
theorem demand {condition : Prop} [Decidable condition] {error : Error} {action : ChipM α}
    (h : OnlyAdds action) :
    OnlyAdds (if condition then action
      else (MonadExcept.throw error : ChipM PUnit) >>= fun _ => action) := by
  split
  · exact h
  · exact (throw error).bind fun _ => h

/-- A loop only adds if all its rounds do. -/
theorem forM {items : List α} {action : α → ChipM PUnit} (h : ∀ item, OnlyAdds (action item)) :
    OnlyAdds (items.forM action) := by
  induction items with
  | nil => exact pure _
  | cons item rest ih => exact (h item).bind fun _ => ih

end OnlyAdds

end

theorem onlyAdds_note (events : List Event) : OnlyAdds (note events) :=
  .modify fun _ => ⟨rfl, List.prefix_rfl⟩

/-- A register write only adds to what was done. -/
theorem onlyAdds_write (address : UInt16) (data : Bytes) : OnlyAdds (write address data) :=
  fun chip => ⟨rfl, chip.transport.operations_write address data⟩

/-- A read that succeeds returns the bytes of the transport. -/
theorem run_read_ok {chip : Chip} {address : UInt16} {length : Nat} {data : Bytes}
    (h : (chip.transport.read address length).1 = .ok data) :
    (read address length).run chip = .ok data (chip.afterRead address length) := by
  simp only [read, EStateM.run_bind, EStateM.run_get, h]
  rfl

/-- A read that fails returns the error of the transport. -/
theorem run_read_error {chip : Chip} {address : UInt16} {length : Nat} {error : Error}
    (h : (chip.transport.read address length).1 = .error error) :
    (read address length).run chip = .error error (chip.afterRead address length) := by
  simp only [read, EStateM.run_bind, EStateM.run_get, h]
  rfl

/-- A register read only adds to what was done, whether it succeeds or fails. -/
theorem onlyAdds_read (address : UInt16) (length : Nat) : OnlyAdds (read address length) := by
  intro chip
  have hgrows : chip.Grows (chip.afterRead address length) :=
    ⟨rfl, chip.transport.operations_read address length⟩
  cases hresult : (chip.transport.read address length).1 with
  | ok data => rwa [final_of_ok (run_read_ok hresult)]
  | error error => rwa [final_of_error (run_read_error hresult)]

theorem onlyAdds_readUInt16 (address : UInt16) : OnlyAdds (readUInt16 address) :=
  (onlyAdds_read address 2).bind fun _ => .ofExcept _

theorem onlyAdds_readUInt32 (address : UInt16) : OnlyAdds (readUInt32 address) :=
  (onlyAdds_read address 4).bind fun _ => .ofExcept _

theorem onlyAdds_fixedPoint : OnlyAdds fixedPoint :=
  OnlyAdds.get.bind fun _ => .pure _

/-- Register writes one after the other only add to what was done. -/
theorem onlyAdds_writes (writes : List (UInt16 × Bytes)) :
    OnlyAdds (writes.forM fun (register, word) => write register word) :=
  .forM fun (register, word) => onlyAdds_write register word

/-- Starting the transfer only adds to what was done, also if core control cannot be read. -/
theorem onlyAdds_startTransfer : OnlyAdds Safeload.startTransfer :=
  (onlyAdds_readUInt16 _).bind fun _ => onlyAdds_write _ _

/-- A safeload only adds to what was done, also if it is refused or its read of core control fails.
-/
theorem onlyAdds_safeload (address : UInt16) (data : Bytes) :
    OnlyAdds (Safeload.run address data) := by
  refine OnlyAdds.refuse ?_
  refine OnlyAdds.get.bind fun chip => ?_
  cases chip.family with
  | adau14xx => exact onlyAdds_writes _
  | adau1x0x => exact (onlyAdds_writes _).bind fun _ => onlyAdds_startTransfer

/-- A word is set by a safeload or by a write, and both only add. -/
theorem onlyAdds_setWord (address : UInt16) (word : UInt32) : OnlyAdds (setWord address word) := by
  refine OnlyAdds.get.bind fun chip => ?_
  split
  · exact onlyAdds_safeload _ _
  · exact onlyAdds_write _ _

theorem onlyAdds_getGain (address : UInt16) : OnlyAdds (getGain address) :=
  (onlyAdds_readUInt32 address).bind fun _ => onlyAdds_fixedPoint.bind fun _ => .ofExcept _

/-- Reading a parameter only adds to what was done. -/
theorem onlyAdds_getParameter (address : UInt16) (kind : ParameterKind) :
    OnlyAdds (getParameter address kind) := by
  refine (onlyAdds_readUInt32 address).bind fun word => ?_
  cases kind with
  | int => exact .pure _
  | float => exact onlyAdds_fixedPoint.bind fun _ => (OnlyAdds.ofExcept _).bind fun _ => .pure _

/-- Setting a parameter only adds to what was done, also if the value does not fit. -/
theorem onlyAdds_setParameter (address : UInt16) (value : Parameter) :
    OnlyAdds (setParameter address value) :=
  onlyAdds_fixedPoint.bind fun _ => (OnlyAdds.ofExcept _).bind fun _ => onlyAdds_setWord _ _

theorem onlyAdds_getLevel (address : UInt16) : OnlyAdds (getLevel address) :=
  (onlyAdds_getGain address).bind fun _ => OnlyAdds.get.bind fun _ => .pure _

/-- A volume request only adds to what was done, in all ways in which it can end. -/
theorem onlyAdds_setVolume (level : Binary64) (address : UInt16) (relative : Bool) :
    OnlyAdds (setVolume level address relative) := by
  refine (onlyAdds_getLevel address).bind fun current => ?_
  split
  · exact (onlyAdds_note _).bind fun _ => .pure _
  · refine OnlyAdds.get.bind fun chip => ?_
    generalize (if relative = true then current.add level else level) = target
    dsimp only
    split
    · exact (onlyAdds_note _).bind fun _ => .pure _
    · refine onlyAdds_fixedPoint.bind fun format => ?_
      split
      · exact .pure _
      · exact (onlyAdds_setWord _ _).bind fun _ => (onlyAdds_note _).bind fun _ =>
          onlyAdds_getLevel _

/-- A soft reset only adds to what was done, in both families. -/
theorem onlyAdds_softReset : OnlyAdds softReset := by
  refine OnlyAdds.get.bind fun chip => ?_
  cases chip.family with
  | adau14xx =>
    exact (onlyAdds_note _).bind fun _ => (onlyAdds_write _ _).bind fun _ => onlyAdds_write _ _
  | adau1x0x => exact onlyAdds_note _

/-- The reset line is not part of what is done on the bus. -/
theorem onlyAdds_drive (line : ResetLine) (action : LineAction) : OnlyAdds (drive line action) :=
  fun _ => ⟨rfl, List.prefix_rfl⟩

/-- A pulse on the reset line takes nothing back, also if the line cannot be driven. -/
theorem onlyAdds_pulse (line : ResetLine) (milliseconds : Nat) :
    OnlyAdds (pulse line milliseconds) := by
  have hrelease (line : ResetLine) : OnlyAdds (discard (drive line .low)) :=
    (onlyAdds_drive line .low).bind fun _ => .pure _
  exact .demand ((onlyAdds_drive _ _).bind fun _ => (onlyAdds_drive _ _).bind fun line =>
    .demand (hrelease line))

/-- A hard reset only adds to what was done, with a reset line and without. -/
theorem onlyAdds_hardReset (milliseconds : Nat) : OnlyAdds (hardReset milliseconds) := by
  refine OnlyAdds.get.bind fun chip => ?_
  cases chip.resetLine with
  | none => exact (onlyAdds_note _).bind fun _ => onlyAdds_softReset
  | some line =>
    exact (onlyAdds_note _).bind fun _ => (onlyAdds_pulse _ _).bind fun _ => onlyAdds_softReset

/-- The check of the safety hash only adds to what was done, whether or not it reads a register. -/
theorem onlyAdds_checkHash (cell : Option HashCell) : OnlyAdds (checkHash cell) := by
  cases cell with
  | none => exact (onlyAdds_note _).bind fun _ => .pure _
  | some cell =>
    refine (onlyAdds_readUInt32 _).bind fun actual => (onlyAdds_note _).bind fun _ => ?_
    split <;> exact (onlyAdds_note _).bind fun _ => .pure _

end ChipM

namespace Command

open Actions

variable {chip : Chip} {address : UInt16} {length : Nat}

/-- A read that succeeds is answered with the bytes of the transport. -/
theorem run_read_of_ok {data : Bytes} (h : (chip.transport.read address length).1 = .ok data) :
    (read address length).run.run chip = .ok (.data data) (chip.afterRead address length) := by
  rw [run]
  refine (@run_bind_ok _ _ _ _ chip (chip.afterRead address length) (.error (.data data)) _
    ?_ _).trans rfl
  refine run_tryCatch_ok ?_ _
  rw [run_bind_ok (ChipM.run_read_ok h)]
  rfl

/-- A read that fails is noted and answered with zeros. -/
theorem run_read_of_error {error : Error}
    (h : (chip.transport.read address length).1 = .error error) :
    (read address length).run.run chip = .ok (.data (Bytes.zeros length))
      { chip.afterRead address length with
        journal := (chip.afterRead address length).journal ++
          [Event.readFailed length address error] } := by
  rw [run]
  refine (@run_bind_ok _ _ _ _ chip _ (.error (.data (Bytes.zeros length))) _ ?_ _).trans rfl
  exact (run_tryCatch_error (run_bind_error (ChipM.run_read_error h) _) _).trans rfl

end Command

/-- Every command only adds to what was done. -/
theorem Command.onlyAdds_run (command : Command) : ChipM.OnlyAdds command.run := by
  cases command with
  | write address data => exact (ChipM.onlyAdds_write _ _).bind fun _ => .pure _
  | safeload address data =>
    exact ((ChipM.onlyAdds_safeload _ _).tryCatch fun _ => ChipM.onlyAdds_note _).bind fun _ =>
      .pure _
  | read address length =>
    intro chip
    have hgrows : chip.Grows (chip.afterRead address length) :=
      ⟨rfl, chip.transport.operations_read address length⟩
    cases hresult : (chip.transport.read address length).1 with
    | ok data => rwa [ChipM.final_of_ok (run_read_of_ok hresult)]
    | error error =>
      rw [ChipM.final_of_ok (run_read_of_error hresult)]
      exact ⟨hgrows.family, hgrows.operations⟩
  | setParameter address value => exact (ChipM.onlyAdds_setParameter _ _).bind fun _ => .pure _
  | getParameter address kind => exact (ChipM.onlyAdds_getParameter _ _).bind fun _ => .pure _
  | setVolume level address relative => exact (ChipM.onlyAdds_setVolume _ _ _).bind fun _ => .pure _
  | softReset => exact ChipM.onlyAdds_softReset.bind fun _ => .pure _
  | hardReset milliseconds => exact (ChipM.onlyAdds_hardReset _).bind fun _ => .pure _
  | checkHash cell => exact (ChipM.onlyAdds_checkHash _).bind fun _ => .pure _

namespace Worker

/-- A living worker answers a command that succeeds and keeps the chip behind it. -/
theorem perform_of_run {worker : Worker} {command : Command} {answer : Answer} {chip : Chip}
    (halive : worker.isAlive = true) (h : command.run.run worker.chip = .ok answer chip) :
    worker.perform command = (.ok answer, { worker with chip }) := by
  have hrun : command.run worker.chip = .ok answer chip := h
  rw [perform, if_pos halive, hrun]

/-- A living worker returns the error of a command and keeps the chip behind it. -/
theorem perform_of_error {worker : Worker} {command : Command} {error : Error} {chip : Chip}
    (halive : worker.isAlive = true) (h : command.run.run worker.chip = .error error chip) :
    worker.perform command = (.error error, { worker with chip }) := by
  have hrun : command.run worker.chip = .error error chip := h
  rw [perform, if_pos halive, hrun]

/-- A dead worker does nothing. -/
theorem perform_of_gone {worker : Worker} (hgone : worker.isAlive = false) (command : Command) :
    worker.perform command = (.error .workerGone, worker) := by
  rw [perform, if_neg (Bool.eq_false_iff.mp hgone)]

/-- No command makes a worker die or live again. -/
theorem isAlive_perform (worker : Worker) (command : Command) :
    (worker.perform command).2.isAlive = worker.isAlive := by
  rw [perform]
  split
  · cases command.run worker.chip <;> rfl
  · rfl

/-- A command leaves a later state of the same chip, whatever its outcome is. -/
theorem grows_perform (worker : Worker) (command : Command) :
    worker.chip.Grows (worker.perform command).2.chip := by
  have hgrows := command.onlyAdds_run worker.chip
  rw [ChipM.final] at hgrows
  rw [perform]
  split
  · cases hrun : command.run worker.chip with
    | ok answer chip =>
      rw [EStateM.run, hrun] at hgrows
      exact hgrows
    | error error chip =>
      rw [EStateM.run, hrun] at hgrows
      exact hgrows
  · exact .refl _

/-- Carry out commands one after the other. -/
def performAll (worker : Worker) (commands : List Command) : Worker :=
  commands.foldl (fun worker command => (worker.perform command).2) worker

@[simp] theorem performAll_nil (worker : Worker) : worker.performAll [] = worker := rfl

@[simp] theorem performAll_cons (worker : Worker) (command : Command) (rest : List Command) :
    worker.performAll (command :: rest) = (worker.perform command).2.performAll rest := rfl

/-- Commands in two parts are carried out one part after the other. -/
theorem performAll_append (worker : Worker) (first second : List Command) :
    worker.performAll (first ++ second) = (worker.performAll first).performAll second :=
  List.foldl_append

/-- No commands make a worker die or live again. -/
theorem isAlive_performAll (worker : Worker) (commands : List Command) :
    (worker.performAll commands).isAlive = worker.isAlive := by
  induction commands generalizing worker with
  | nil => rfl
  | cons command rest ih => rw [performAll_cons, ih, isAlive_perform]

/-- Commands keep the family of the chip. -/
theorem family_performAll (worker : Worker) (commands : List Command) :
    (worker.performAll commands).family = worker.family := by
  induction commands generalizing worker with
  | nil => rfl
  | cons command rest ih => exact (ih _).trans (worker.grows_perform command).family

end Worker

end TuningBridge
