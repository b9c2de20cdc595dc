import TuningBridge.Proofs.Access
import TuningBridge.Proofs.Chunks

/-!
# Frames of register accesses

A register write on a bus is attempted frame by frame up to the first one that is not transferred.
Whether it was whole shows in the journal only: a write that stopped leaves an error event.  A read
is one transaction.
-/

namespace TuningBridge

/-- The transfers of transactions of which `done` are transferred: the next one fails, and none
follows it. -/
def Transfer.upTo (transactions : List Transaction) (done : Nat) : List Transfer :=
  (transactions.take done).map (⟨·, true⟩) ++ (transactions[done]?).toList.map (⟨·, false⟩)

theorem Transfer.map_transaction_upTo (transactions : List Transaction) (done : Nat) :
    (Transfer.upTo transactions done).map (·.transaction) = transactions.take (done + 1) := by
  simp [Transfer.upTo, List.take_add_one, Function.comp_def]

/-- What stands in front of the transaction that fails is transferred. -/
theorem Transfer.getElem?_upTo_of_lt {transactions : List Transaction} {done index : Nat}
    (hindex : index < done) (hle : done ≤ transactions.length) :
    (Transfer.upTo transactions done)[index]? = some ⟨transactions[index], true⟩ := by
  rw [Transfer.upTo, List.getElem?_append_left (by simp; omega), List.getElem?_map,
    List.getElem?_take_of_lt hindex, List.getElem?_eq_getElem (by omega), Option.map_some]

/-- The transaction behind the transferred ones fails. -/
theorem Transfer.getElem?_upTo_self {transactions : List Transaction} {done : Nat}
    (hlt : done < transactions.length) :
    (Transfer.upTo transactions done)[done]? = some ⟨transactions[done], false⟩ := by
  simp [Transfer.upTo, hlt, Nat.min_eq_left (Nat.le_of_lt hlt)]

/-- All transactions are transferred. -/
theorem Transfer.upTo_length (transactions : List Transaction) :
    Transfer.upTo transactions transactions.length = transactions.map (⟨·, true⟩) := by
  simp [Transfer.upTo]

/-- The transactions of a register write if none of them fails. -/
def Port.transactions (port : Port) (words : Nat) (write : UInt16 × Bytes) : List Transaction :=
  (Chunk.ofWrite write.1 write.2 words).map fun chunk => port.sending (port.frame chunk)

/-- The transaction that sends a register write in one frame. -/
def Port.wholeFrame (port : Port) (write : UInt16 × Bytes) : Transaction :=
  port.sending (port.frame ⟨write.1, write.2⟩)

/-- Whether a transaction sends a frame of a register write. -/
def Transaction.isSending : Transaction → Bool
  | .spiWrite _ | .i2cWrite .. => true
  | .spiExchange _ | .i2cWriteRead .. => false

theorem Port.isSending_sending (port : Port) (frame : Bytes) :
    (port.sending frame).isSending = true := by
  cases port <;> rfl

theorem Port.isSending_reading (port : Port) (address : UInt16) (length : Nat) :
    (port.reading address length).isSending = false := by
  cases port <;> rfl

/-- A write for which there is room in a frame is one transaction, as is any where there is no room
at all. -/
theorem Port.transactions_of_le {port : Port} {words : Nat} {write : UInt16 × Bytes}
    (hne : write.2 ≠ []) (hle : words = 0 ∨ write.2.length ≤ 4 * min words Chunk.maxWords) :
    port.transactions words write = [port.wholeFrame write] := by
  rw [transactions, Chunk.ofWrite_of_le hne hle]
  rfl

/-- What becomes of a register write on a bus: how many of its frames are transferred. -/
structure Attempt where
  write : UInt16 × Bytes
  done : Nat

namespace Attempt

variable (port : Port) (words : Nat) (attempt : Attempt)

/-- The transfers of an attempt, the one that failed included. -/
def transfers : List Transfer := Transfer.upTo (port.transactions words attempt.write) attempt.done

/-- The events of an attempt. -/
def events : List Event :=
  Transport.writeEvents port attempt.write.1 attempt.write.2.length
    (Chunk.ofWrite attempt.write.1 attempt.write.2 words) attempt.done

/-- No more frames are transferred than the write has. -/
def IsPossible : Prop := attempt.done ≤ (port.transactions words attempt.write).length

/-- Every frame is transferred. -/
def IsWhole : Prop := attempt.done = (port.transactions words attempt.write).length

/-- An error is reported. -/
def IsReported : Prop := ∃ event ∈ attempt.events port words, event.severity = .error

end Attempt

/-- A wire carries out transfers and becomes another: they are added to its traffic, and each of
them is transferred unless it is planned to fail. -/
structure Wire.CarriesOut (wire : Wire) (transfers : List Transfer) (next : Wire) : Prop where
  fails : next.fails = wire.fails
  traffic : next.traffic.toList = wire.traffic.toList ++ transfers
  transferred : ∀ index transfer, transfers[index]? = some transfer →
    transfer.transferred = !wire.fails (wire.traffic.size + index)

namespace Wire

variable {wire middle next : Wire}

namespace CarriesOut

protected theorem refl (wire : Wire) : wire.CarriesOut [] wire :=
  ⟨rfl, (List.append_nil _).symm, by simp⟩

theorem size {transfers : List Transfer} (h : wire.CarriesOut transfers next) :
    next.traffic.size = wire.traffic.size + transfers.length := by
  have hlength := congrArg List.length h.traffic
  rwa [List.length_append, Array.length_toList, Array.length_toList] at hlength

protected theorem trans {first second : List Transfer} (hfirst : wire.CarriesOut first middle)
    (hsecond : middle.CarriesOut second next) : wire.CarriesOut (first ++ second) next where
  fails := hsecond.fails.trans hfirst.fails
  traffic := by rw [hsecond.traffic, hfirst.traffic, List.append_assoc]
  transferred index transfer htransfer := by
    by_cases hindex : index < first.length
    · rw [List.getElem?_append_left hindex] at htransfer
      exact hfirst.transferred index transfer htransfer
    · rw [List.getElem?_append_right (Nat.not_lt.mp hindex)] at htransfer
      have h := hsecond.transferred _ transfer htransfer
      rw [hfirst.fails, hfirst.size] at h
      rwa [show wire.traffic.size + index =
        wire.traffic.size + first.length + (index - first.length) by omega]

/-- A transaction is one transfer. -/
theorem perform (wire : Wire) (transaction : Transaction) :
    wire.CarriesOut [⟨transaction, (wire.perform transaction).1⟩] (wire.perform transaction).2 where
  fails := rfl
  traffic := Array.toList_push
  transferred index transfer htransfer := by
    cases index with
    | zero =>
      obtain rfl := Option.some.inj htransfer
      rfl
    | succ index => cases htransfer

/-- What the chip answers is not a transfer. -/
theorem answer (wire : Wire) (length : Nat) : wire.CarriesOut [] (wire.answer length).2 := by
  rw [Wire.answer]
  split
  · exact CarriesOut.refl wire
  · exact ⟨rfl, (List.append_nil _).symm, by simp⟩

end CarriesOut

/-- Transactions are carried out up to the first one that fails. -/
theorem carriesOut_performWhile (wire : Wire) (done : Nat) (transactions : List Transaction) :
    ∃ count ≤ transactions.length, ∃ next,
      wire.performWhile done transactions = (done + count, next) ∧
      wire.CarriesOut (Transfer.upTo transactions count) next := by
  induction transactions generalizing wire done with
  | nil => exact ⟨0, Nat.le_refl _, wire, rfl, .refl wire⟩
  | cons transaction rest ih =>
    have hperform := CarriesOut.perform wire transaction
    rw [performWhile]
    cases hresult : wire.perform transaction with
    | mk transferred middle =>
      rw [hresult] at hperform
      cases transferred with
      | false => exact ⟨0, Nat.zero_le _, middle, rfl, hperform⟩
      | true =>
        obtain ⟨count, hle, next, heq, hrest⟩ := ih middle (done + 1)
        refine ⟨count + 1, Nat.succ_le_succ hle, next, ?_, hperform.trans hrest⟩
        show middle.performWhile (done + 1) rest = _
        rw [heq, Nat.add_assoc, Nat.add_comm 1]

/-- Of a number of transactions as many are transferred as there are before the first one that is
planned to fail, or all if none is. -/
structure StopsAfter (wire : Wire) (count done : Nat) : Prop where
  le : done ≤ count
  kept : ∀ index < done, wire.fails (wire.traffic.size + index) = false
  failed : done < count → wire.fails (wire.traffic.size + done) = true

/-- On a wire that never fails all transactions are transferred. -/
theorem StopsAfter.eq_of_never_fails {count done : Nat} (h : wire.StopsAfter count done)
    (hfails : ∀ index, wire.fails index = false) : done = count := by
  refine Nat.le_antisymm h.le (Nat.not_lt.mp fun hlt => ?_)
  have hfailed := h.failed hlt
  rw [hfails] at hfailed
  cases hfailed

/-- Where transactions are carried out up to one that fails, that one is the first that is planned
to fail. -/
theorem CarriesOut.stopsAfter {transactions : List Transaction} {done : Nat}
    (h : wire.CarriesOut (Transfer.upTo transactions done) next)
    (hle : done ≤ transactions.length) : wire.StopsAfter transactions.length done where
  le := hle
  kept := by
    intro index hindex
    simpa using h.transferred index _ (Transfer.getElem?_upTo_of_lt hindex hle)
  failed := by
    intro hlt
    simpa using h.transferred done _ (Transfer.getElem?_upTo_self hlt)

end Wire

/-- A register write on a bus sends its frames up to the first one that is planned to fail. -/
theorem Transport.exists_write (port : Port) (words : Nat) (wire : Wire) (write : UInt16 × Bytes) :
    ∃ (done : Nat) (next : Wire),
      (bus port words wire).write write.1 write.2 =
        (writeEvents port write.1 write.2.length (Chunk.ofWrite write.1 write.2 words) done,
          .bus port words next) ∧
      wire.CarriesOut (Transfer.upTo (port.transactions words write) done) next ∧
      wire.StopsAfter (port.transactions words write).length done := by
  obtain ⟨done, hle, next, hperform, hcarries⟩ :=
    wire.carriesOut_performWhile 0 (port.transactions words write)
  refine ⟨done, next, ?_, hcarries, hcarries.stopsAfter hle⟩
  rw [Nat.zero_add, Port.transactions] at hperform
  simp only [Transport.write, hperform]

/-- The transactions that were carried out so far; a register bank needs none. -/
def Transport.transfers : Transport → List Transfer
  | .memory _ => []
  | .bus _ _ wire => wire.traffic.toList

namespace Attempt

variable {port : Port} {words : Nat} {attempt : Attempt}

/-- The transactions of an attempt are the first ones of its write. -/
theorem map_transaction_transfers (port : Port) (words : Nat) (attempt : Attempt) :
    (attempt.transfers port words).map (·.transaction) =
      (port.transactions words attempt.write).take (attempt.done + 1) :=
  Transfer.map_transaction_upTo _ _

/-- An error is reported if and only if the write is not whole. -/
theorem isReported_iff (hpossible : attempt.IsPossible port words) :
    attempt.IsReported port words ↔ ¬attempt.IsWhole port words := by
  simp only [IsPossible, IsWhole, Port.transactions, List.length_map] at hpossible ⊢
  constructor
  · rintro ⟨event, hevent, herror⟩ hwhole
    rw [events, Transport.writeEvents, List.getElem?_eq_none (Nat.le_of_eq hwhole.symm)] at hevent
    obtain ⟨chunk, _, rfl⟩ := List.mem_map.mp hevent
    cases port <;> cases herror
  · intro hwhole
    have hlt : attempt.done < (Chunk.ofWrite attempt.write.1 attempt.write.2 words).length := by
      omega
    refine ⟨port.writeFailure
      (Chunk.ofWrite attempt.write.1 attempt.write.2 words)[attempt.done].address
      (((Chunk.ofWrite attempt.write.1 attempt.write.2 words).take attempt.done).flatMap
        (·.payload)).length
      attempt.write.2.length attempt.write.1, ?_, ?_⟩
    · simp [events, Transport.writeEvents, List.getElem?_eq_getElem hlt]
    · cases port <;> rfl

/-- A write of one frame is one transfer. -/
theorem exists_transfers_eq {transaction : Transaction} (hpossible : attempt.IsPossible port words)
    (hone : port.transactions words attempt.write = [transaction]) :
    ∃ transferred, attempt.transfers port words = [⟨transaction, transferred⟩] := by
  rw [IsPossible, hone, List.length_singleton] at hpossible
  rw [transfers, hone]
  match hdone : attempt.done, hpossible with
  | 0, _ => exact ⟨false, rfl⟩
  | 1, _ => exact ⟨true, rfl⟩

end Attempt

namespace Chip

variable {chip : Chip} {port : Port} {words : Nat} {wire : Wire}

/-- A register write on a bus is an attempt at its frames. -/
theorem exists_attempt (hbus : chip.transport = .bus port words wire) (write : UInt16 × Bytes) :
    ∃ (attempt : Attempt) (next : Wire), attempt.write = write ∧ attempt.IsPossible port words ∧
      (chip.afterWrite write).transport = .bus port words next ∧
      wire.CarriesOut (attempt.transfers port words) next ∧
      (chip.afterWrite write).journal.toList =
        chip.journal.toList ++ attempt.events port words := by
  obtain ⟨done, next, hwrite, hcarries, hstops⟩ := Transport.exists_write port words wire write
  rw [← hbus] at hwrite
  refine ⟨⟨write, done⟩, next, rfl, hstops.le, congrArg Prod.snd hwrite, hcarries, ?_⟩
  simp [afterWrite, hwrite, Attempt.events]

/-- A register write of one word at most is one transfer on a bus. -/
theorem exists_transfer (hbus : chip.transport = .bus port words wire) (write : UInt16 × Bytes)
    (hpos : 0 < write.2.length) (hle : write.2.length ≤ 4) :
    ∃ (transferred : Bool) (next : Wire) (events : List Event),
      (chip.afterWrite write).transport = .bus port words next ∧
      wire.CarriesOut [⟨port.wholeFrame write, transferred⟩] next ∧
      (chip.afterWrite write).journal.toList = chip.journal.toList ++ events := by
  obtain ⟨attempt, next, rfl, hpossible, hnext, hcarries, hjournal⟩ :=
    chip.exists_attempt hbus write
  have hroom : words = 0 ∨ attempt.write.2.length ≤ 4 * min words Chunk.maxWords := by
    simp only [Chunk.maxWords]
    omega
  have hone : port.transactions words attempt.write = [port.wholeFrame attempt.write] :=
    Port.transactions_of_le (List.length_pos_iff.mp hpos) hroom
  obtain ⟨transferred, htransfers⟩ := attempt.exists_transfers_eq hpossible hone
  exact ⟨transferred, next, _, hnext, htransfers ▸ hcarries, hjournal⟩

/-- Register writes on a bus are attempted one after the other, whatever becomes of each. -/
theorem exists_attempts (hbus : chip.transport = .bus port words wire)
    (writes : List (UInt16 × Bytes)) :
    ∃ (attempts : List Attempt) (next : Wire), attempts.map (·.write) = writes ∧
      (∀ attempt ∈ attempts, attempt.IsPossible port words) ∧
      (chip.afterWrites writes).transport = .bus port words next ∧
      wire.CarriesOut (attempts.flatMap (·.transfers port words)) next ∧
      (chip.afterWrites writes).journal.toList =
        chip.journal.toList ++ attempts.flatMap (·.events port words) := by
  induction writes generalizing chip wire with
  | nil => exact ⟨[], wire, rfl, by simp, hbus, .refl wire, by simp⟩
  | cons write rest ih =>
    obtain ⟨attempt, middle, hwrite, hpossible, hmiddle, hfirst, hjournal⟩ :=
      exists_attempt hbus write
    obtain ⟨attempts, next, hrest, hall, hnext, hsecond, hjournal'⟩ := ih hmiddle
    refine ⟨attempt :: attempts, next, ?_, List.forall_mem_cons.mpr ⟨hpossible, hall⟩, hnext,
      hfirst.trans hsecond, ?_⟩
    · rw [List.map_cons, hwrite, hrest]
    · rw [afterWrites_cons, hjournal', hjournal, List.flatMap_cons, List.append_assoc]

/-- A read on a bus is one transaction; it fails if and only if that is not transferred. -/
theorem exists_afterRead (hbus : chip.transport = .bus port words wire) (address : UInt16)
    (length : Nat) :
    ∃ (next : Wire) (events : List Event),
      (chip.afterRead address length).transport = .bus port words next ∧
      (chip.afterRead address length).journal.toList = chip.journal.toList ++ events ∧
      ((∃ data, (chip.transport.read address length).1 = .ok data ∧
          wire.CarriesOut [⟨port.reading address length, true⟩] next) ∨
        (chip.transport.read address length).1 = .error (.bus (port.readFault address)) ∧
          wire.CarriesOut [⟨port.reading address length, false⟩] next) := by
  have hperform := Wire.CarriesOut.perform wire (port.reading address length)
  cases hresult : wire.perform (port.reading address length) with
  | mk transferred middle =>
    rw [hresult] at hperform
    simp only [afterRead, hbus, Transport.read, hresult, Array.toList_appendList]
    cases transferred with
    | true =>
      refine ⟨(middle.answer length).2, _, rfl, rfl, .inl ⟨(middle.answer length).1, rfl, ?_⟩⟩
      exact hperform.trans (.answer middle length)
    | false => exact ⟨middle, _, rfl, rfl, .inr ⟨rfl, hperform⟩⟩

end Chip

end TuningBridge
