import TuningBridge.Proofs.Growth

/-!
# Register accesses

A register write always succeeds and leaves the chip after it, so a sequence of writes leaves the
chip after all of them.  A read that succeeds returns as many bytes as it was asked for, so a word
that is read is always one.
-/

namespace TuningBridge

namespace RegisterMap

/-- A register is read with as many bytes as asked for. -/
theorem length_fetch (map : RegisterMap) (address : UInt16) (length : Nat) :
    (map.fetch address length).length = length :=
  Bytes.length_fit _ _

/-- Registers are read with as many bytes as asked for, a block or a single one. -/
theorem length_load (map : RegisterMap) (address : UInt16) (length : Nat) :
    (map.load address length).length = length := by
  rw [load]
  split
  · next hblock =>
    have hwhole : length % 4 = 0 := by
      simp only [isBlock, Bool.and_eq_true, beq_iff_eq] at hblock
      exact hblock.2
    simp only [List.length_flatMap, length_fetch, List.map_const', List.length_range,
      List.sum_replicate_nat]
    omega
  · exact length_fetch _ _ _

end RegisterMap

/-- A transport reads as many bytes as it is asked for. -/
theorem Transport.length_read {transport : Transport} {address : UInt16} {length : Nat}
    {data : Bytes} (h : (transport.read address length).1 = .ok data) : data.length = length := by
  cases transport with
  | memory bank =>
    simp only [read, Bank.read] at h
    split at h
    · cases h
    · rw [← Except.ok.inj h, RegisterMap.length_load]
  | bus port words wire =>
    simp only [read] at h
    split at h
    · rw [← Except.ok.inj h, Wire.answer]
      split
      · exact List.length_replicate
      · exact Bytes.length_fit _ _
    · cases h

/-- The chip after a register write. -/
def Chip.afterWrite (chip : Chip) (write : UInt16 × Bytes) : Chip :=
  { chip with
    transport := (chip.transport.write write.1 write.2).2
    journal := chip.journal ++ (chip.transport.write write.1 write.2).1 }

/-- The chip after register writes, one after the other. -/
def Chip.afterWrites (chip : Chip) (writes : List (UInt16 × Bytes)) : Chip :=
  writes.foldl afterWrite chip

namespace Chip

@[simp] theorem afterWrites_nil (chip : Chip) : chip.afterWrites [] = chip := rfl

@[simp] theorem afterWrites_cons (chip : Chip) (write : UInt16 × Bytes)
    (rest : List (UInt16 × Bytes)) :
    chip.afterWrites (write :: rest) = (chip.afterWrite write).afterWrites rest := rfl

/-- Writes in two parts are done one part after the other. -/
theorem afterWrites_append (chip : Chip) (first second : List (UInt16 × Bytes)) :
    chip.afterWrites (first ++ second) = (chip.afterWrites first).afterWrites second :=
  List.foldl_append

end Chip

namespace ChipM

variable {chip : Chip}

/-- A register write never fails; what becomes of it on a bus is noted. -/
theorem run_write (address : UInt16) (data : Bytes) :
    (write address data).run chip = .ok () (chip.afterWrite (address, data)) := rfl

/-- Writes succeed one after the other, whatever becomes of them on the bus. -/
theorem run_writes (chip : Chip) (writes : List (UInt16 × Bytes)) :
    (writes.forM fun (register, data) => write register data).run chip =
      .ok () (chip.afterWrites writes) := by
  induction writes generalizing chip with
  | nil => rfl
  | cons first rest ih =>
    refine (Actions.run_bind_ok (run_write first.1 first.2) _).trans ?_
    exact ih _

/-- A word that is read is the number that its two bytes denote. -/
theorem run_readUInt16_ok {address : UInt16} {data : Bytes}
    (h : (chip.transport.read address 2).1 = .ok data) :
    (readUInt16 address).run chip = .ok (UInt16.ofNat data.toNat) (chip.afterRead address 2) := by
  rw [readUInt16, Actions.run_bind_ok (run_read_ok h), Register.word16,
    if_pos (Transport.length_read h)]
  rfl

/-- A 16-bit read fails as the read of its two bytes does. -/
theorem run_readUInt16_error {address : UInt16} {error : Error}
    (h : (chip.transport.read address 2).1 = .error error) :
    (readUInt16 address).run chip = .error error (chip.afterRead address 2) :=
  Actions.run_bind_error (run_read_error h) _

/-- A 32-bit read returns the number that its four bytes write. -/
theorem run_readUInt32_ok {address : UInt16} {data : Bytes}
    (h : (chip.transport.read address 4).1 = .ok data) :
    (readUInt32 address).run chip = .ok (UInt32.ofNat data.toNat) (chip.afterRead address 4) := by
  rw [readUInt32, Actions.run_bind_ok (run_read_ok h), Register.word32,
    if_pos (Transport.length_read h)]
  rfl

/-- A 32-bit read fails as the read of its four bytes does. -/
theorem run_readUInt32_error {address : UInt16} {error : Error}
    (h : (chip.transport.read address 4).1 = .error error) :
    (readUInt32 address).run chip = .error error (chip.afterRead address 4) :=
  Actions.run_bind_error (run_read_error h) _

/-- Noting events changes the journal only. -/
theorem run_note (events : List Event) :
    (note events).run chip = .ok () { chip with journal := chip.journal ++ events } := rfl

end ChipM

end TuningBridge
