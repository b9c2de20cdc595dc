import TuningBridge.Proofs.Device

/-!
# What a register bank reads back

Data stored at an address covers registers: as many as it has words if it is a block, and otherwise
the one at the address.  A register reads as what last covered it, cut or padded to the length read,
and several words read as the registers one after the other; so whole words that are written are
read back word by word, wherever the reading starts.  Reads change no register, failing ones
included, and a bank that records keeps all writes and reads.
-/

namespace TuningBridge

namespace RegisterMap

variable {address register : UInt16} {data : Bytes} {length count : Nat}

theorem get?_empty (register : UInt16) : empty.get? register = none := by
  simp [empty, get?]

/-- A word, and what is no block, is read from one register. -/
theorem load_of_not_block (h : length ≤ 4 ∨ length % 4 ≠ 0) (map : RegisterMap) (address : UInt16) :
    map.load address length = map.fetch address length := by
  rw [load, if_neg]
  simp only [isBlock, Bool.and_eq_true, decide_eq_true_eq, beq_iff_eq]
  omega

/-- Whole words are read from one register after the other. -/
theorem load_words (map : RegisterMap) (address : UInt16) (count : Nat) :
    map.load address (4 * count) =
      (List.range count).flatMap fun index => map.fetch (address + UInt16.ofNat index) 4 := by
  match count with
  | 0 =>
    rw [Nat.mul_zero, load_of_not_block (.inl (Nat.zero_le 4)), fetch, Bytes.fit, Nat.zero_sub]
    rfl
  | 1 =>
    have hzero : address + UInt16.ofNat 0 = address := UInt16.add_zero address
    rw [Nat.mul_one, load_of_not_block (.inl (Nat.le_refl 4)), List.range_one,
      List.flatMap_singleton, hzero]
  | count + 2 =>
    rw [load, if_pos, Nat.mul_div_cancel_left _ (by decide)]
    simp only [isBlock, Bool.and_eq_true, decide_eq_true_eq, beq_iff_eq]
    omega

/-- The registers of whole words, one after the other. -/
theorem map_fst_spread (hwhole : data.length = 4 * count) (hpos : 0 < count) (address : UInt16) :
    (spread address data).map Prod.fst = (List.range count).map fun index =>
      address + UInt16.ofNat index := by
  have hcount : (Bytes.words data).length = count := by
    rw [Bytes.length_words, Bytes.wordCount_of_whole hwhole]
  have hnumbers : (Bytes.words data).zipIdx.map Prod.snd = List.range count := by
    rw [List.zipIdx_map_snd, hcount, List.range_eq_range']
  rw [spread_of_whole hwhole hpos, ← hnumbers, List.map_map, List.map_map]
  rfl

/-- No more words than there are registers go to different ones. -/
theorem nodup_spread (hwhole : data.length = 4 * count) (hpos : 0 < count) (hle : count ≤ 65536)
    (address : UInt16) : ((spread address data).map Prod.fst).Nodup := by
  rw [map_fst_spread hwhole hpos, List.Nodup, List.pairwise_map]
  refine List.pairwise_lt_range.imp_of_mem ?_
  intro first second hfirst hsecond hlt heq
  rw [List.mem_range] at hfirst hsecond
  have hnat := congrArg UInt16.toNat heq
  simp only [UInt16.toNat_add, UInt16.toNat_ofNat'] at hnat
  omega

/-- Whole words that are put are found again, each in its register. -/
theorem fetch_puts_spread (map : RegisterMap) (hwhole : data.length = 4 * count)
    (hle : count ≤ 65536) (address : UInt16) {index : Nat} (hindex : index < count) :
    (map.puts (spread address data)).fetch (address + UInt16.ofNat index) 4 =
      (data.drop (4 * index)).take 4 := by
  have hpos : 0 < count := by omega
  have hcell : (address + UInt16.ofNat index, (data.drop (4 * index)).take 4) ∈
      spread address data := by
    rw [spread_of_whole hwhole hpos, List.mem_map]
    refine ⟨((data.drop (4 * index)).take 4, index), ?_, rfl⟩
    exact List.mk_mem_zipIdx_iff_getElem?.mpr (Bytes.getElem?_words (by omega))
  have hword : ((data.drop (4 * index)).take 4).length = 4 := by
    rw [List.length_take, List.length_drop]
    omega
  have hcontents : (map.puts (spread address data)).contents (address + UInt16.ofNat index) =
      (data.drop (4 * index)).take 4 :=
    contents_puts_of_mem (nodup_spread hwhole hpos hle address) hcell
  rw [contents] at hcontents
  rw [fetch, hcontents]
  exact Bytes.fit_eq_self_iff.mpr hword

end RegisterMap

namespace Bank

/-- A call of a register bank. -/
inductive Call
  | write (address : UInt16) (data : Bytes)
  /-- Put data into registers without recording it. -/
  | preload (address : UInt16) (data : Bytes)
  | read (address : UInt16) (length : Nat)
  /-- Let reads fail from now on, or no longer. -/
  | failReads (fails : Bool)
  deriving DecidableEq, Repr

namespace Call

/-- The registers that a call covers, each with its contents. -/
def covers : Call → List (UInt16 × Bytes)
  | write address data | preload address data => RegisterMap.spread address data
  | read .. | failReads .. => []

/-- What is recorded of a call. -/
def access? : Call → Option BankAccess
  | write address data => some (.write address data)
  | read address length => some (.read address length)
  | preload .. | failReads .. => none

end Call

/-- The bank behind a call. -/
def call (bank : Bank) : Call → Bank
  | .write address data => bank.write address data
  | .preload address data => bank.preload address data
  | .read address length => (bank.read address length).2
  | .failReads fails => { bank with failsReads := fails }

/-- The bank behind calls, one after the other. -/
def called (bank : Bank) (calls : List Call) : Bank := calls.foldl call bank

/-- What a bank returns, and what it keeps, when its registers were covered with contents one after
the other. -/
structure Recalls (bank : Bank) (covered : List (UInt16 × Bytes)) : Prop where
  /-- A word, and what is no block, reads as the contents that last covered the register, cut or
  padded with zeros. -/
  register : bank.failsReads = false → ∀ (address : UInt16) (length : Nat),
    length ≤ 4 ∨ length % 4 ≠ 0 →
    (bank.read address length).1 = .ok (Bytes.fit length ((covered.reverse.lookup address).getD []))
  /-- Several words read as the words at consecutive registers; addresses wrap around. -/
  block : ∀ (address : UInt16) (length : Nat) (data : Bytes), 4 < length → length % 4 = 0 →
    (bank.read address length).1 = .ok data →
      ∃ words : List Bytes, words.length = length / 4 ∧ words.flatten = data ∧
        ∀ index word, words[index]? = some word →
          (bank.read (address + UInt16.ofNat index) 4).1 = .ok word
  /-- Whole words that are written are read back from any of them on, as far as they go. -/
  written : bank.failsReads = false →
    ∀ (address : UInt16) (data : Bytes) (count start length : Nat),
    data.length = 4 * count → 1 ≤ count → count ≤ 65536 → start + length ≤ count →
      ((bank.write address data).read (address + UInt16.ofNat start) (4 * length)).1 =
        .ok ((data.drop (4 * start)).take (4 * length))
  /-- Registers that a call does not cover keep what they hold. -/
  uncovered : ∀ (call : Call) (register : UInt16), register ∉ call.covers.map Prod.fst →
    (bank.call call).registers.get? register = bank.registers.get? register
  /-- A read, failing or not, changes no register. -/
  unread : ∀ (address : UInt16) (length : Nat),
    (bank.read address length).2.registers = bank.registers

variable {bank : Bank}

/-- A read succeeds unless reads fail, and returns what the registers hold. -/
theorem read_eq_ok_iff {address : UInt16} {length : Nat} {data : Bytes} :
    (bank.read address length).1 = .ok data ↔
    bank.failsReads = false ∧ bank.registers.load address length = data := by
  rw [read]
  cases hfails : bank.failsReads with
  | false => simp
  | true => simp

/-- A call puts contents into the registers that it covers. -/
theorem registers_call (bank : Bank) (call : Call) :
    (bank.call call).registers = bank.registers.puts call.covers := by
  cases call with
  | write address data => exact bank.registers_write address data
  | preload address data => exact RegisterMap.store_eq_puts ..
  | read address length =>
    rw [call, read_snd, registers_record]
    rfl
  | failReads fails => rfl

theorem registers_called (bank : Bank) (calls : List Call) :
    (bank.called calls).registers = bank.registers.puts (calls.flatMap Call.covers) := by
  induction calls generalizing bank with
  | nil => rfl
  | cons call rest ih =>
    rw [List.flatMap_cons, RegisterMap.puts_append, ← registers_call]
    exact ih (bank.call call)

/-- A call is recorded if the bank records, which no call changes. -/
theorem accesses_call (bank : Bank) (call : Call) : (bank.call call).recording = bank.recording ∧
    (bank.call call).accesses.toList =
      bank.accesses.toList ++ if bank.recording then call.access?.toList else [] := by
  cases call with
  | write address data => exact ⟨recording_record .., accesses_record ..⟩
  | preload address data => simp [Bank.call, preload, Call.access?]
  | read address length =>
    rw [Bank.call, read_snd]
    exact ⟨recording_record .., accesses_record ..⟩
  | failReads fails => simp [Bank.call, Call.access?]

theorem accesses_called (bank : Bank) (calls : List Call) : (bank.called calls).accesses.toList =
    bank.accesses.toList ++ if bank.recording then calls.filterMap Call.access? else [] := by
  induction calls generalizing bank with
  | nil => simp [called]
  | cons call rest ih =>
    obtain ⟨hrecording, haccesses⟩ := bank.accesses_call call
    refine (ih (bank.call call)).trans ?_
    rw [hrecording, haccesses, List.append_assoc]
    cases bank.recording with
    | true => cases haccess : call.access? <;> simp [haccess]
    | false => rfl

/-- Whole words that are written are read back from any of them on, as far as they go. -/
theorem read_write_of_whole (hreads : bank.failsReads = false) {data : Bytes}
    {count start length : Nat} (hwhole : data.length = 4 * count) (hle : count ≤ 65536)
    (hwithin : start + length ≤ count) (address : UInt16) :
    ((bank.write address data).read (address + UInt16.ofNat start) (4 * length)).1 =
      .ok ((data.drop (4 * start)).take (4 * length)) := by
  have hafter : (bank.write address data).failsReads = false := (failsReads_record ..).trans hreads
  refine read_eq_ok_iff.mpr ⟨hafter, ?_⟩
  rw [RegisterMap.load_words, registers_write, ← Bytes.flatMap_words]
  rw [List.flatMap_def, List.flatMap_def]
  refine congrArg List.flatten (List.map_congr_left fun index hindex => ?_)
  rw [List.mem_range] at hindex
  rw [UInt16.add_assoc, ← UInt16.ofNat_add]
  exact RegisterMap.fetch_puts_spread bank.registers hwhole hle address (by omega)

/-- A bank whose registers were covered one after the other recalls what covered them last. -/
theorem recalls_of_puts {covered : List (UInt16 × Bytes)}
    (hregisters : bank.registers = RegisterMap.empty.puts covered) : bank.Recalls covered where
  register := by
    intro hreads address length hlength
    refine read_eq_ok_iff.mpr ⟨hreads, ?_⟩
    rw [RegisterMap.load_of_not_block hlength, RegisterMap.fetch, hregisters, RegisterMap.get?_puts,
      RegisterMap.get?_empty, Option.or_none]
  block := by
    intro address length data hlong hwhole hdata
    obtain ⟨hreads, hload⟩ := read_eq_ok_iff.mp hdata
    refine ⟨(List.range (length / 4)).map fun index =>
      bank.registers.fetch (address + UInt16.ofNat index) 4, by simp, ?_, ?_⟩
    · rw [← hload, ← List.flatMap_def, ← RegisterMap.load_words,
        Nat.mul_div_cancel' (Nat.dvd_of_mod_eq_zero hwhole)]
    · intro index word hword
      rw [List.getElem?_map] at hword
      obtain ⟨number, hnumber, rfl⟩ := Option.map_eq_some_iff.mp hword
      obtain ⟨_, rfl⟩ := List.getElem?_eq_some_iff.mp hnumber
      rw [List.getElem_range]
      exact read_eq_ok_iff.mpr ⟨hreads, RegisterMap.load_of_not_block (.inl (Nat.le_refl 4)) _ _⟩
  written := fun hreads address _ _ _ _ hwhole _ hle hwithin =>
    read_write_of_whole hreads hwhole hle hwithin address
  uncovered := by
    intro call register hregister
    rw [registers_call, RegisterMap.get?_puts_of_notMem hregister]
  unread := by
    intro address length
    rw [read_snd, registers_record]

/-- A new bank recalls what the calls stored so far, and keeps the writes and reads if it
records. -/
theorem recalls_last_cover (recording failsReads : Bool) (calls : List Call) :
    let bank := ({ recording, failsReads } : Bank).called calls
    bank.Recalls (calls.flatMap Call.covers) ∧
      bank.accesses.toList = if recording then calls.filterMap Call.access? else [] := by
  intro bank
  refine ⟨recalls_of_puts (registers_called _ calls), ?_⟩
  exact (accesses_called _ calls).trans (List.nil_append _)

-- The second word of the block goes to the first register, where two bytes replace it.
example :
    let after := ({} : Bank).called [.write 0xFFFF [1, 2, 3, 4, 5, 6, 7, 8], .write 0 [9, 9]]
    after.registers.load 0xFFFF 8 = [1, 2, 3, 4, 9, 9, 0, 0] := by decide +kernel

end Bank

end TuningBridge
