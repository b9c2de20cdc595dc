import TuningBridge.Proofs.Frames

/-!
# Reading changes nothing

A read is one operation on the way to the registers at most, and no write; the registers of a bank
stay as they are.
-/

namespace TuningBridge

/-- Whether an operation writes to a register. -/
def BusOperation.isWrite : BusOperation → Bool
  | .access (.write ..) => true
  | .access (.read ..) => false
  | .transfer ⟨transaction, _⟩ => transaction.isSending

/-- The registers of a bank; those of a chip behind a bus are out of sight. -/
def Transport.registers? : Transport → Option RegisterMap
  | .memory bank => some bank.registers
  | .bus .. => none

/-- A transport on which nothing was written in between. -/
structure Transport.Unwritten (before after : Transport) : Prop where
  registers : after.registers? = before.registers?
  operations : ∃ added, after.operations = before.operations ++ added ∧
    ∀ operation ∈ added, operation.isWrite = false

protected theorem Transport.Unwritten.refl (transport : Transport) :
    transport.Unwritten transport :=
  ⟨rfl, [], (List.append_nil _).symm, by simp⟩

/-- A read of a bank leaves its registers, and is all that may be recorded. -/
private theorem Bank.unwritten_read (bank : Bank) (address : UInt16) (length : Nat) :
    (Transport.memory bank).Unwritten (.memory (bank.read address length).2) := by
  rw [Bank.read_snd, Bank.record]
  split
  · exact ⟨rfl, [.access (.read address length)], by simp [Transport.operations],
      List.forall_mem_singleton.mpr rfl⟩
  · exact .refl _

/-- A read writes nothing, whether it succeeds or fails. -/
theorem Chip.unwritten_afterRead (chip : Chip) (address : UInt16) (length : Nat) :
    chip.transport.Unwritten (chip.afterRead address length).transport := by
  cases hchip : chip.transport with
  | memory bank =>
    have hafter : (chip.afterRead address length).transport =
        .memory (bank.read address length).2 := by
      rw [Chip.afterRead, hchip]
      rfl
    rw [hafter]
    exact bank.unwritten_read address length
  | bus port words wire =>
    obtain ⟨next, _, hnext, _, hread⟩ := chip.exists_afterRead hchip address length
    rw [hnext]
    have hone : ∀ transferred, wire.CarriesOut [⟨port.reading address length, transferred⟩] next →
        (Transport.bus port words wire).Unwritten (.bus port words next) := by
      intro transferred hcarries
      refine ⟨rfl, [.transfer ⟨port.reading address length, transferred⟩], ?_, ?_⟩
      · simp [Transport.operations, hcarries.traffic]
      · exact List.forall_mem_singleton.mpr (port.isSending_reading address length)
    rcases hread with ⟨_, _, hcarries⟩ | ⟨_, hcarries⟩
    · exact hone true hcarries
    · exact hone false hcarries

end TuningBridge
