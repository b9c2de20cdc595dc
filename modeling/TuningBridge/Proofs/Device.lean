import TuningBridge.Proofs.Staging

/-!
# Chips that take staged words over

What the chips are taken to do with register accesses.  A write is kept in the registers that it
goes to.  The write that commits a safeload makes the chip take over what was staged: `adau14xx` as
many words as are written to the count register, and `adau1x0x`, when the transfer bit is written,
every slot that was filled since the transfer before.  A register bank keeps what is written and
takes nothing over.
-/

namespace TuningBridge

/-- The access that writes data to a register. -/
def BankAccess.ofWrite (write : UInt16 × Bytes) : BankAccess := .write write.1 write.2

/-- The registers that an access writes. -/
def BankAccess.written : BankAccess → List UInt16
  | write address data => (RegisterMap.spread address data).map Prod.fst
  | read .. => []

/-- Data that is no block goes to one register. -/
theorem BankAccess.written_ofWrite {write : UInt16 × Bytes}
    (h : RegisterMap.isBlock write.2.length = false) :
    (BankAccess.ofWrite write).written = [write.1] := by
  rw [ofWrite, written, RegisterMap.spread_of_not_block h, List.map_singleton]

/-- The bank after an access. -/
def Bank.access (bank : Bank) : BankAccess → Bank
  | .write address data => bank.write address data
  | .read address length => (bank.read address length).2

/-- The bank after accesses, one after the other. -/
def Bank.follow (bank : Bank) (accesses : List BankAccess) : Bank := accesses.foldl access bank

/-- A chip that takes staged words over. -/
structure Device where
  family : Family
  registers : RegisterMap
  /-- The registers that were written since words were last taken over. -/
  touched : List UInt16 := []

/-- The register whose write commits a safeload. -/
def Safeload.commitRegister : Family → UInt16
  | .adau14xx => countRegister
  | .adau1x0x => controlRegister

namespace Device

open Safeload

/-- What `adau14xx` takes over: the staged words, to consecutive registers from the staged address
on. -/
def wordCells (registers : RegisterMap) (count : Nat) : List (UInt16 × Bytes) :=
  (dataRegisters.take count).zipIdx.map fun (register, index) =>
    (UInt16.ofNat (registers.contents addressRegister).toNat + UInt16.ofNat index,
      registers.contents register)

/-- The last four bytes of a byte string. -/
def lastWord (data : Bytes) : Bytes := data.drop (data.length - 4)

/-- What `adau1x0x` takes over: the last four bytes of every filled slot, to the register that it
names. -/
def slotCells (registers : RegisterMap) (touched : List UInt16) : List (UInt16 × Bytes) :=
  (slots.filter fun slot => touched.contains slot.2).map fun slot =>
    (UInt16.ofNat (registers.contents slot.1).toNat, lastWord (registers.contents slot.2))

/-- What a chip takes over after data was written to a register, if it does. -/
def takeover? (device : Device) (register : UInt16) (data : Bytes) :
    Option (List (UInt16 × Bytes)) :=
  match device.family with
  | .adau14xx =>
    if register = countRegister then some (wordCells device.registers data.toNat) else none
  | .adau1x0x =>
    if register = controlRegister ∧ UInt16.ofNat data.toNat &&& transferBit ≠ 0 then
      some (slotCells device.registers device.touched)
    else none

/-- The chip after data was put into a register. -/
def put (device : Device) (register : UInt16) (data : Bytes) : Device :=
  let kept := { device with
    registers := device.registers.put register data
    touched := register :: device.touched }
  match kept.takeover? register data with
  | some cells => { kept with registers := kept.registers.puts cells, touched := [] }
  | none => kept

/-- The chip after an access. -/
def access (device : Device) : BankAccess → Device
  | .write address data =>
    (RegisterMap.spread address data).foldl (fun device cell => device.put cell.1 cell.2) device
  | .read .. => device

/-- The chip after accesses, one after the other. -/
def follow (device : Device) (accesses : List BankAccess) : Device := accesses.foldl access device

end Device

namespace Bank

@[simp] theorem follow_nil (bank : Bank) : bank.follow [] = bank := rfl

@[simp] theorem follow_cons (bank : Bank) (access : BankAccess) (rest : List BankAccess) :
    bank.follow (access :: rest) = (bank.access access).follow rest := rfl

theorem follow_append (bank : Bank) (first second : List BankAccess) :
    bank.follow (first ++ second) = (bank.follow first).follow second :=
  List.foldl_append

/-- An access is recorded, if recording is on, and changes neither the recording nor whether reads
fail. -/
private theorem access_settings (bank : Bank) (access : BankAccess) :
    (bank.access access).failsReads = bank.failsReads ∧
      (bank.access access).recording = bank.recording ∧
      (bank.recording = true →
        (bank.access access).accesses.toList = bank.accesses.toList ++ [access]) := by
  have hrecord : ∀ before : Bank, before.recording = true →
      (before.record access).accesses.toList = before.accesses.toList ++ [access] := by
    intro before hrecording
    rw [accesses_record, hrecording, if_pos rfl]
  cases access with
  | write address data =>
    exact ⟨failsReads_record .., recording_record .., hrecord (bank.preload address data)⟩
  | read address length =>
    rw [Bank.access, read_snd]
    exact ⟨failsReads_record .., recording_record .., hrecord bank⟩

/-- A write puts data into the registers that it goes to. -/
theorem registers_write (bank : Bank) (address : UInt16) (data : Bytes) :
    (bank.write address data).registers =
      bank.registers.puts (RegisterMap.spread address data) := by
  rw [← RegisterMap.store_eq_puts, write, registers_record]
  rfl

/-- Accesses do not change whether reads fail. -/
theorem failsReads_follow (bank : Bank) (accesses : List BankAccess) :
    (bank.follow accesses).failsReads = bank.failsReads := by
  induction accesses generalizing bank with
  | nil => rfl
  | cons access rest ih => rw [follow_cons, ih, (bank.access_settings access).1]

/-- A bank that records keeps all accesses. -/
theorem accesses_follow {bank : Bank} (h : bank.recording = true) (accesses : List BankAccess) :
    (bank.follow accesses).accesses.toList = bank.accesses.toList ++ accesses := by
  induction accesses generalizing bank with
  | nil => exact (List.append_nil _).symm
  | cons access rest ih =>
    obtain ⟨_, hrecording, haccesses⟩ := bank.access_settings access
    rw [follow_cons, ih (hrecording.trans h), haccesses h, List.append_assoc]
    rfl

end Bank

/-- The operations on a bank that records are the accesses to it. -/
theorem Transport.operations_follow {bank : Bank} (h : bank.recording = true)
    (accesses : List BankAccess) :
    (memory (bank.follow accesses)).operations =
      (memory bank).operations ++ accesses.map .access := by
  rw [operations, operations, Bank.accesses_follow h, List.map_append]

namespace Chip

variable {chip : Chip} {bank : Bank}

/-- A register write on a register bank is a write to it. -/
theorem transport_afterWrite (hbank : chip.transport = .memory bank) (write : UInt16 × Bytes) :
    (chip.afterWrite write).transport = .memory (bank.write write.1 write.2) := by
  rw [afterWrite, hbank]
  rfl

/-- Register writes on a register bank are accesses to it. -/
theorem transport_afterWrites (hbank : chip.transport = .memory bank)
    (writes : List (UInt16 × Bytes)) :
    (chip.afterWrites writes).transport = .memory (bank.follow (writes.map .ofWrite)) := by
  induction writes generalizing chip bank with
  | nil => exact hbank
  | cons write rest ih => exact ih (transport_afterWrite hbank write)

/-- A read on a register bank is an access to it. -/
theorem transport_afterRead (hbank : chip.transport = .memory bank) (address : UInt16)
    (length : Nat) :
    (chip.afterRead address length).transport = .memory (bank.follow [.read address length]) := by
  rw [afterRead, hbank]
  rfl

end Chip

namespace Device

open Safeload

variable {device : Device} {register : UInt16} {data : Bytes}

@[simp] theorem follow_nil (device : Device) : device.follow [] = device := rfl

@[simp] theorem follow_cons (device : Device) (access : BankAccess) (rest : List BankAccess) :
    device.follow (access :: rest) = (device.access access).follow rest := rfl

theorem follow_append (device : Device) (first second : List BankAccess) :
    device.follow (first ++ second) = (device.follow first).follow second :=
  List.foldl_append

/-- Only the write that commits a safeload makes a chip take words over. -/
theorem put_of_ne (h : register ≠ commitRegister device.family) :
    device.put register data = { device with
      registers := device.registers.put register data
      touched := register :: device.touched } := by
  cases hfamily : device.family with
  | adau14xx =>
    rw [hfamily] at h
    simp [put, takeover?, hfamily, show register ≠ countRegister from h]
  | adau1x0x =>
    rw [hfamily] at h
    simp [put, takeover?, hfamily, show register ≠ controlRegister from h]

/-- A chip that puts data that is no block does so in one register. -/
theorem access_ofWrite {write : UInt16 × Bytes} (h : RegisterMap.isBlock write.2.length = false) :
    device.access (.ofWrite write) = device.put write.1 write.2 := by
  rw [BankAccess.ofWrite, access, RegisterMap.spread_of_not_block h]
  rfl

/-- Writes that commit nothing are kept. -/
theorem follow_writes {writes : List (UInt16 × Bytes)}
    (h : ∀ write ∈ writes,
      write.1 ≠ commitRegister device.family ∧ RegisterMap.isBlock write.2.length = false) :
    device.follow (writes.map .ofWrite) = { device with
      registers := device.registers.puts writes
      touched := (writes.map Prod.fst).reverse ++ device.touched } := by
  induction writes generalizing device with
  | nil => rfl
  | cons write rest ih =>
    obtain ⟨⟨hne, hblock⟩, hrest⟩ := List.forall_mem_cons.mp h
    rw [List.map_cons, follow_cons, access_ofWrite hblock, put_of_ne hne]
    refine (ih ?_).trans ?_
    · exact hrest
    · simp

end Device

end TuningBridge
