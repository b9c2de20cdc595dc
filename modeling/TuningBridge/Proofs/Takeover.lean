import Mathlib.Data.List.Flatten
import TuningBridge.Proofs.Device
import TuningBridge.Proofs.Numeral

/-!
# Safeload against direct writes

A safeload writes to the registers of its interface only, and the commit is its last access.  In all
other registers a chip that takes the staged words over then holds what a direct write of the data
puts there.
-/

namespace TuningBridge

/-- Pairs are as many as the shorter list has members. -/
theorem map_zip {α β : Type} (first : List α) (second : List β) :
    (first.zip second).map Prod.fst = first.take second.length ∧
      (first.zip second).map Prod.snd = second.take first.length := by
  induction first generalizing second with
  | nil => simp
  | cons head rest ih =>
    cases second with
    | nil => simp
    | cons head' rest' => simp [ih rest']

namespace Safeload

/-- The registers that words are staged in. -/
def stagingRegisters : Family → List UInt16
  | .adau14xx => dataRegisters ++ [addressRegister]
  | .adau1x0x => slots.flatMap fun slot => [slot.1, slot.2]

/-- The registers of a family that serve safeload. -/
def interface (family : Family) : List UInt16 := stagingRegisters family ++ [commitRegister family]

variable {family : Family} {address : UInt16} {data : Bytes} {count : Nat} {touched : List UInt16}
  {registers : RegisterMap}

/-- No register is listed twice, and the commit has one of its own. -/
theorem nodup_interface (family : Family) :
    (stagingRegisters family).Nodup ∧ commitRegister family ∉ stagingRegisters family := by
  cases family <;> decide

/-- The slots that words are staged in are the first ones. -/
theorem map_fst_hardwareWrites (address : UInt16) (data : Bytes) :
    (hardwareWrites address data).map Prod.fst =
      (slots.take (Bytes.wordCount data)).flatMap fun slot => [slot.1, slot.2] := by
  have hslots : ((Bytes.words data).zipIdx.zip slots).map Prod.snd =
      slots.take (Bytes.wordCount data) := by
    rw [(map_zip _ _).2, List.length_zipIdx, Bytes.length_words]
  rw [hardwareWrites, List.map_flatMap, ← hslots, List.flatMap_map]
  rfl

/-- The slots behind the first ones have registers of their own. -/
theorem notMem_of_mem_drop_slots {slot : UInt16 × UInt16} (hslot : slot ∈ slots.drop count) :
    slot.2 ≠ controlRegister ∧
      slot.2 ∉ (slots.take count).flatMap fun slot => [slot.1, slot.2] := by
  obtain ⟨hnodup, hcommit⟩ := nodup_interface .adau1x0x
  constructor
  · intro heq
    exact hcommit
      (List.mem_flatMap.mpr ⟨slot, List.mem_of_mem_drop hslot, by simp [← heq, commitRegister]⟩)
  · intro htaken
    rw [stagingRegisters, ← List.take_append_drop count slots, List.flatMap_append,
      List.nodup_append] at hnodup
    exact hnodup.2.2 _ htaken _ (List.mem_flatMap.mpr ⟨slot, hslot, by simp⟩) rfl

/-- Every staging register is written once at most. -/
theorem sublist_staging (family : Family) (address : UInt16) (data : Bytes) :
    ((staging family address data).map Prod.fst).Sublist (stagingRegisters family) := by
  cases family with
  | adau14xx =>
    rw [staging, List.map_append, (map_zip _ _).1]
    exact (List.take_sublist _ _).append (List.Sublist.refl _)
  | adau1x0x =>
    rw [staging, map_fst_hardwareWrites]
    exact (List.take_sublist _ _).flatMap _

theorem nodup_staging (family : Family) (address : UInt16) (data : Bytes) :
    ((staging family address data).map Prod.fst).Nodup :=
  (sublist_staging family address data).nodup (nodup_interface family).1

/-- Staging writes commit nothing, and go to one register each. -/
theorem single_of_mem_staging {write : UInt16 × Bytes} (h : write ∈ staging family address data) :
    write.1 ∈ stagingRegisters family ∧ write.1 ≠ commitRegister family ∧
      RegisterMap.isBlock write.2.length = false := by
  have hmem : write.1 ∈ stagingRegisters family :=
    (sublist_staging family address data).mem (List.mem_map_of_mem h)
  refine ⟨hmem, fun heq => (nodup_interface family).2 (heq ▸ hmem), ?_⟩
  cases family with
  | adau14xx =>
    have hlength := length_of_mem_staging_adau14xx h
    simp only [RegisterMap.isBlock, Bool.and_eq_false_imp, decide_eq_true_eq]
    omega
  | adau1x0x =>
    rcases length_of_mem_staging_adau1x0x h with hlength | hlength
    · rw [hlength]
      rfl
    · rw [hlength]
      rfl

/-- What a chip that takes words over holds in front of the commit. -/
theorem follow_staging (device : Device) (address : UInt16) (data : Bytes) :
    device.follow ((staging device.family address data).map .ofWrite) = { device with
      registers := device.registers.puts (staging device.family address data)
      touched := ((staging device.family address data).map Prod.fst).reverse ++ device.touched } :=
  Device.follow_writes fun _ hwrite => (single_of_mem_staging hwrite).2

/-- The registers of a chip with all words staged and the commit written, before any word is taken
over. -/
def committed (family : Family) (registers : RegisterMap) (address : UInt16) (data commit : Bytes) :
    RegisterMap :=
  (registers.puts (staging family address data)).put (commitRegister family) commit

variable {commit : Bytes}

/-- The commit leaves what is staged. -/
theorem contents_committed {register : UInt16} {word : Bytes}
    (h : (register, word) ∈ staging family address data) :
    (committed family registers address data commit).contents register = word := by
  obtain ⟨_, hne, _⟩ := single_of_mem_staging h
  rw [committed, RegisterMap.contents, RegisterMap.get?_put, if_neg (Ne.symm hne)]
  exact RegisterMap.contents_puts_of_mem (nodup_staging family address data) h

/-- Staging leaves all other registers than those that words are staged in. -/
theorem get?_puts_staging {register : UInt16} (h : register ∉ stagingRegisters family) :
    (registers.puts (staging family address data)).get? register = registers.get? register :=
  RegisterMap.get?_puts_of_notMem fun hmem => h ((sublist_staging family address data).mem hmem)

/-- Other registers than those of the interface are as before. -/
theorem get?_committed {register : UInt16} (h : register ∉ interface family) :
    (committed family registers address data commit).get? register = registers.get? register := by
  simp only [interface, List.mem_append, List.mem_singleton, not_or] at h
  obtain ⟨hstaging, hne⟩ := h
  rw [committed, RegisterMap.get?_put, if_neg (Ne.symm hne), get?_puts_staging hstaging]

/-- The word with an index is staged in the data register of that index. -/
theorem mem_staging_adau14xx {index : Nat} (hword : index < (Bytes.words data).length)
    (hregister : index < dataRegisters.length) :
    (dataRegisters[index], (Bytes.words data)[index]) ∈ staging .adau14xx address data := by
  have hpair : index < (dataRegisters.zip (Bytes.words data)).length := by
    rw [List.length_zip]
    omega
  have hmem := List.getElem_mem hpair
  rw [List.getElem_zip] at hmem
  exact List.mem_append_left _ hmem

/-- The word with an index is staged in the slot of that index, with the address that it is for. -/
theorem mem_staging_adau1x0x {index : Nat} (address : UInt16)
    (hword : index < (Bytes.words data).length) (hslot : index < slots.length) :
    (slots[index].1, Bytes.ofUInt16 (address + UInt16.ofNat index)) ∈
      staging .adau1x0x address data ∧
      (slots[index].2, slotData (Bytes.words data)[index]) ∈ staging .adau1x0x address data := by
  have hpair : index < ((Bytes.words data).zipIdx.zip slots).length := by
    rw [List.length_zip, List.length_zipIdx]
    omega
  have hmem := List.getElem_mem hpair
  rw [List.getElem_zip, List.getElem_zipIdx, Nat.zero_add] at hmem
  exact ⟨List.mem_flatMap.mpr ⟨_, hmem, by simp⟩, List.mem_flatMap.mpr ⟨_, hmem, by simp⟩⟩

/-- The last four bytes of a slot are its word, padded with zeros. -/
theorem lastWord_slotData (word : Bytes) : Device.lastWord (slotData word) = Bytes.fit 4 word := by
  rw [Device.lastWord, length_slotData, slotData]
  rfl

/-- `adau14xx` takes over what a direct write puts. -/
theorem wordCells_committed (hwhole : data.length = 4 * count) (hpos : 0 < count)
    (hcapacity : count ≤ capacity) :
    Device.wordCells (committed .adau14xx registers address data commit) count =
      RegisterMap.spread address data := by
  have hwords : (Bytes.words data).length = count := by
    rw [Bytes.length_words, Bytes.wordCount_of_whole hwhole]
  have hregisters : count ≤ dataRegisters.length := hcapacity
  have haddress : (committed .adau14xx registers address data commit).contents addressRegister =
      Bytes.ofNat 4 address.toNat :=
    contents_committed (List.mem_append_right _ (List.mem_singleton.mpr rfl))
  rw [Device.wordCells, haddress, Bytes.toUInt16_ofNat (by decide),
    RegisterMap.spread_of_whole hwhole hpos]
  refine List.ext_getElem ?_ fun index hleft hright => ?_
  · simp
    omega
  · simp only [List.length_map, List.length_zipIdx] at hright
    have hcontents :
        (committed .adau14xx registers address data commit).contents dataRegisters[index] =
          (Bytes.words data)[index] :=
      contents_committed (mem_staging_adau14xx hright (by omega))
    simp [hcontents]

/-- `adau1x0x` takes over what a direct write puts. -/
theorem slotCells_committed (hwhole : data.length = 4 * count) (hpos : 0 < count)
    (hcapacity : count ≤ capacity) (hin : ∀ slot ∈ slots.take count, slot.2 ∈ touched)
    (hout : ∀ slot ∈ slots.drop count, slot.2 ∉ touched) :
    Device.slotCells (committed .adau1x0x registers address data commit) touched =
      RegisterMap.spread address data := by
  have hwords : (Bytes.words data).length = count := by
    rw [Bytes.length_words, Bytes.wordCount_of_whole hwhole]
  have hslots : count ≤ slots.length := hcapacity
  have hfilled : slots.filter (fun slot => touched.contains slot.2) = slots.take count := by
    conv_lhs => rw [← List.take_append_drop count slots]
    rw [List.filter_append, List.filter_eq_self.mpr, List.filter_eq_nil_iff.mpr, List.append_nil]
    · simpa using hout
    · simpa using hin
  rw [Device.slotCells, hfilled, RegisterMap.spread_of_whole hwhole hpos]
  refine List.ext_getElem ?_ fun index hleft hright => ?_
  · simp
    omega
  · simp only [List.length_map, List.length_zipIdx] at hright
    have hslot : index < slots.length := by omega
    obtain ⟨htarget, hstored⟩ := mem_staging_adau1x0x address hright hslot
    have haddress : UInt16.ofNat
        ((committed .adau1x0x registers address data commit).contents slots[index].1).toNat =
          address + UInt16.ofNat index := by
      rw [contents_committed htarget, Bytes.ofUInt16, Bytes.toUInt16_ofNat (by decide)]
    have hword : Device.lastWord
          ((committed .adau1x0x registers address data commit).contents slots[index].2) =
        (Bytes.words data)[index] := by
      rw [contents_committed hstored, lastWord_slotData]
      exact Bytes.fit_eq_self_iff.mpr
        (Bytes.length_of_mem_words_of_whole (by omega) (List.getElem_mem hright))
    simp [haddress, hword]

/-- The accesses of a safeload that commit it, core control being read as `control`. -/
def commitAccesses : Family → (control data : Bytes) → List BankAccess
  | .adau14xx, _, data => [.ofWrite (countWrite data)]
  | .adau1x0x, control, _ => [.read controlRegister 2, .ofWrite (controlWrite control)]

/-- All accesses of a safeload, core control being read as `control`. -/
def course (family : Family) (control : Bytes) (address : UInt16) (data : Bytes) :
    List BankAccess :=
  (staging family address data).map .ofWrite ++ commitAccesses family control data

/-- The transfer bit is set in the commit of `adau1x0x`. -/
theorem controlWrite_and_transferBit (control : Bytes) :
    UInt16.ofNat (controlWrite control).2.toNat &&& transferBit ≠ 0 := by
  have hbit : ∀ word : UInt16, (word ||| transferBit) &&& transferBit = transferBit := by
    intro word
    apply UInt16.toBitVec_inj.mp
    ext index
    simp only [UInt16.toBitVec_and, UInt16.toBitVec_or, BitVec.getElem_and, BitVec.getElem_or]
    cases transferBit.toBitVec[index] <;> simp
  rw [controlWrite, Bytes.ofUInt16, Bytes.toUInt16_ofNat (by decide), hbit]
  decide

/-- The number of words makes `adau14xx` take over as many. -/
theorem put_countWrite {device : Device} (hfamily : device.family = .adau14xx)
    (hcapacity : Bytes.wordCount data ≤ capacity) :
    device.put (countWrite data).1 (countWrite data).2 = { device with
      registers := (device.registers.put countRegister (countWrite data).2).puts
        (Device.wordCells (device.registers.put countRegister (countWrite data).2)
          (Bytes.wordCount data))
      touched := [] } := by
  have hcount : (countWrite data).2.toNat = Bytes.wordCount data := by
    simp only [capacity] at hcapacity
    rw [countWrite, Bytes.toNat_ofNat, Nat.mod_eq_of_lt (by omega)]
  simp only [Device.put, Device.takeover?, hfamily, hcount]
  rfl

/-- The transfer bit makes `adau1x0x` take over the filled slots. -/
theorem put_controlWrite {device : Device} (hfamily : device.family = .adau1x0x) (control : Bytes) :
    device.put (controlWrite control).1 (controlWrite control).2 = { device with
      registers := (device.registers.put controlRegister (controlWrite control).2).puts
        (Device.slotCells (device.registers.put controlRegister (controlWrite control).2)
          (controlRegister :: device.touched))
      touched := [] } := by
  have hstarts : (controlWrite control).1 = controlRegister ∧
      UInt16.ofNat (controlWrite control).2.toNat &&& transferBit ≠ 0 :=
    ⟨rfl, controlWrite_and_transferBit control⟩
  simp only [Device.put, Device.takeover?, hfamily, if_pos hstarts]
  rfl

/-- With the words staged the first slots are filled and no others, core control being written
last. -/
theorem touched_of_staging (address : UInt16) (hcount : Bytes.wordCount data = count)
    (hfilled : ∀ slot ∈ slots.drop count, slot.2 ∉ touched) :
    (∀ slot ∈ slots.take count, slot.2 ∈
      controlRegister :: (((staging .adau1x0x address data).map Prod.fst).reverse ++ touched)) ∧
    ∀ slot ∈ slots.drop count, slot.2 ∉
      controlRegister :: (((staging .adau1x0x address data).map Prod.fst).reverse ++ touched) := by
  rw [staging, map_fst_hardwareWrites, hcount]
  constructor
  · intro slot hslot
    refine List.mem_cons_of_mem _ (List.mem_append_left _ (List.mem_reverse.mpr ?_))
    exact List.mem_flatMap.mpr ⟨slot, hslot, by simp⟩
  · intro slot hslot
    obtain ⟨hcontrol, hstaging⟩ := notMem_of_mem_drop_slots hslot
    simp only [List.mem_cons, List.mem_append, List.mem_reverse, not_or]
    exact ⟨hcontrol, hstaging, hfilled slot hslot⟩

/-- A chip takes over what a direct write puts. -/
theorem follow_course {device : Device} (control : Bytes) (address : UInt16)
    (hwhole : data.length = 4 * count) (hpos : 0 < count) (hcapacity : count ≤ capacity)
    (hfilled : device.family = .adau1x0x → ∀ slot ∈ slots.drop count, slot.2 ∉ device.touched) :
    ∃ commit, device.follow (course device.family control address data) = { device with
      registers := (committed device.family device.registers address data commit).puts
        (RegisterMap.spread address data)
      touched := [] } := by
  have hcount := Bytes.wordCount_of_whole hwhole
  rw [course, Device.follow_append, follow_staging]
  cases hfamily : device.family with
  | adau14xx =>
    refine ⟨(countWrite data).2, ?_⟩
    rw [commitAccesses, Device.follow_cons, Device.follow_nil, Device.access_ofWrite rfl,
      put_countWrite rfl (hcount ▸ hcapacity), hcount]
    rw [← wordCells_committed hwhole hpos hcapacity]
    rfl
  | adau1x0x =>
    refine ⟨(controlWrite control).2, ?_⟩
    obtain ⟨hin, hout⟩ := touched_of_staging address hcount (hfilled hfamily)
    rw [commitAccesses, Device.follow_cons, Device.follow_cons, Device.follow_nil,
      Device.access_ofWrite rfl]
    show Device.put _ _ _ = _
    rw [put_controlWrite rfl, ← slotCells_committed hwhole hpos hcapacity hin hout]
    rfl

/-- All writes of a safeload go to registers of its interface. -/
theorem mem_interface_of_written {control : Bytes} {access : BankAccess}
    (h : access ∈ course family control address data) {register : UInt16}
    (hregister : register ∈ access.written) : register ∈ interface family := by
  rcases List.mem_append.mp h with h | h
  · obtain ⟨write, hwrite, rfl⟩ := List.mem_map.mp h
    obtain ⟨hstaging, _, hblock⟩ := single_of_mem_staging hwrite
    rw [BankAccess.written_ofWrite hblock, List.mem_singleton] at hregister
    exact List.mem_append_left _ (hregister ▸ hstaging)
  · refine List.mem_append_right _ (List.mem_singleton.mpr ?_)
    cases family with
    | adau14xx =>
      rw [List.mem_singleton.mp h] at hregister
      exact List.mem_singleton.mp hregister
    | adau1x0x =>
      rcases List.mem_cons.mp h with rfl | h
      · cases hregister
      · rw [List.mem_singleton.mp h] at hregister
        exact List.mem_singleton.mp hregister

/-- Two register maps agree in all registers but those of a family's interface. -/
def AgreeOutside (family : Family) (first second : RegisterMap) : Prop :=
  ∀ register ∉ interface family, first.get? register = second.get? register

/-- A chip that took words over agrees with a bank that the data was written to, and has no filled
slot. -/
theorem agreeOutside_course (device : Device) (bank : Bank)
    (hregisters : device.registers = bank.registers) (control : Bytes) (address : UInt16)
    (hwhole : data.length = 4 * count) (hpos : 0 < count) (hcapacity : count ≤ capacity)
    (hfilled : device.family = .adau1x0x → ∀ slot ∈ slots.drop count, slot.2 ∉ device.touched) :
    AgreeOutside device.family (device.follow (course device.family control address data)).registers
        (bank.write address data).registers ∧
      (device.follow (course device.family control address data)).touched = [] := by
  obtain ⟨commit, hfollow⟩ := follow_course control address hwhole hpos hcapacity hfilled
  rw [hfollow]
  refine ⟨fun register hregister => ?_, rfl⟩
  rw [Bank.registers_write, ← hregisters]
  exact RegisterMap.get?_puts_congr (get?_committed hregister)

/-- A chip that words were staged in without a commit has taken nothing over. -/
theorem agreeOutside_staging (device : Device) (address : UInt16) (data : Bytes) :
    AgreeOutside device.family
      (device.follow ((staging device.family address data).map .ofWrite ++
        [.read controlRegister 2])).registers
      device.registers := by
  intro register hregister
  rw [Device.follow_append, follow_staging]
  exact get?_puts_staging fun hstaging => hregister (List.mem_append_left _ hstaging)

variable {chip : Chip} {bank : Bank}

private theorem transport_staged (hbank : chip.transport = .memory bank) (address : UInt16)
    (data : Bytes) :
    (staged chip address data).transport =
      .memory (bank.follow ((staging chip.family address data).map .ofWrite)) :=
  Chip.transport_afterWrites hbank _

/-- On a register bank that can be read a safeload carries out its whole course. -/
theorem run_of_readable (hbank : chip.transport = .memory bank) (hreads : bank.failsReads = false)
    (hcapacity : Bytes.wordCount data ≤ capacity) (address : UInt16) :
    ∃ (control : Bytes) (after : Chip),
      ((bank.follow ((staging chip.family address data).map .ofWrite)).read controlRegister 2).1 =
        .ok control ∧
      (run address data).run chip = .ok () after ∧
      after.transport = .memory (bank.follow (course chip.family control address data)) := by
  have hstaged := transport_staged hbank address data
  obtain ⟨control, hcontrol⟩ : ∃ control,
      ((bank.follow ((staging chip.family address data).map .ofWrite)).read controlRegister 2).1 =
        .ok control := by
    simp [Bank.read, Bank.failsReads_follow, hreads]
  cases hfamily : chip.family with
  | adau14xx =>
    rw [hfamily] at hcontrol hstaged
    refine ⟨control, _, hcontrol, run_adau14xx hfamily hcapacity, ?_⟩
    rw [course, Bank.follow_append]
    exact Chip.transport_afterWrites hstaged [countWrite data]
  | adau1x0x =>
    have hread : ((staged chip address data).transport.read controlRegister 2).1 = .ok control := by
      rw [hstaged]
      exact hcontrol
    rw [hfamily] at hcontrol hstaged
    refine ⟨control, _, hcontrol, run_adau1x0x_ok hfamily hcapacity hread, ?_⟩
    rw [course, Bank.follow_append]
    exact Chip.transport_afterWrites (Chip.transport_afterRead hstaged _ _) [controlWrite control]

/-- On a register bank that cannot be read a safeload of `adau1x0x` ends in front of the commit. -/
theorem run_of_unreadable (hbank : chip.transport = .memory bank) (hreads : bank.failsReads = true)
    (hfamily : chip.family = .adau1x0x) (hcapacity : Bytes.wordCount data ≤ capacity)
    (address : UInt16) :
    ∃ after : Chip, (run address data).run chip = .error (.bus (.bankRead controlRegister)) after ∧
      after.transport = .memory
        (bank.follow ((staging chip.family address data).map .ofWrite ++
          [.read controlRegister 2])) := by
  have hstaged := transport_staged hbank address data
  have hread : ((staged chip address data).transport.read controlRegister 2).1 =
      .error (.bus (.bankRead controlRegister)) := by
    rw [hstaged]
    simp [Transport.read, Bank.read, Bank.failsReads_follow, hreads]
  refine ⟨_, run_adau1x0x_error hfamily hcapacity hread, ?_⟩
  rw [Bank.follow_append]
  exact Chip.transport_afterRead hstaged _ _

/-- A safeload does the work of a direct write. -/
structure RefinesWrite (chip : Chip) (bank : Bank) (touched : List UInt16) (address : UInt16)
    (data : Bytes) : Prop where
  /-- On a bank that can be read a safeload writes to its interface only, the commit last.  A chip
  that takes the staged words over agrees with the bank after the direct write and has no filled
  slot. -/
  readable : bank.failsReads = false → ∃ (control : Bytes) (after : Chip),
    ((bank.follow ((staging chip.family address data).map .ofWrite)).read controlRegister 2).1 =
      .ok control ∧
    (run address data).run chip = .ok () after ∧
    after.transport = .memory (bank.follow (course chip.family control address data)) ∧
    (bank.recording = true → after.transport.operations =
      chip.transport.operations ++ (course chip.family control address data).map .access) ∧
    (∀ access ∈ course chip.family control address data,
      ∀ register ∈ access.written, register ∈ interface chip.family) ∧
    AgreeOutside chip.family (Device.follow ⟨chip.family, bank.registers, touched⟩
      (course chip.family control address data)).registers (bank.write address data).registers ∧
    (Device.follow ⟨chip.family, bank.registers, touched⟩
      (course chip.family control address data)).touched = []
  /-- On a bank that cannot be read `adau1x0x` ends in front of the commit, with the error of the
  read, and takes nothing over. -/
  unreadable : bank.failsReads = true → chip.family = .adau1x0x → ∃ after : Chip,
    (run address data).run chip = .error (.bus (.bankRead controlRegister)) after ∧
    after.transport = .memory
      (bank.follow ((staging chip.family address data).map .ofWrite ++ [.read controlRegister 2])) ∧
    AgreeOutside chip.family (Device.follow ⟨chip.family, bank.registers, touched⟩
      ((staging chip.family address data).map .ofWrite ++
        [.read controlRegister 2])).registers bank.registers

/-- A safeload of one to five whole words does the work of a direct write, unless a chip has filled
slots that the safeload does not use. -/
theorem refinesWrite_of_whole (hbank : chip.transport = .memory bank)
    (hwhole : data.length = 4 * count) (hpos : 0 < count) (hcapacity : count ≤ capacity)
    (hfilled : chip.family = .adau1x0x → ∀ slot ∈ slots.drop count, slot.2 ∉ touched)
    (address : UInt16) : RefinesWrite chip bank touched address data := by
  have hwords : Bytes.wordCount data ≤ capacity := Bytes.wordCount_of_whole hwhole ▸ hcapacity
  constructor
  · intro hreads
    obtain ⟨control, after, hcontrol, hrun, hafter⟩ := run_of_readable hbank hreads hwords address
    obtain ⟨hagree, htouched⟩ := agreeOutside_course ⟨chip.family, bank.registers, touched⟩ bank rfl
      control address hwhole hpos hcapacity hfilled
    refine ⟨control, after, hcontrol, hrun, hafter, fun hrecording => ?_,
      fun _ haccess _ => mem_interface_of_written haccess, hagree, htouched⟩
    rw [hafter, hbank, Transport.operations_follow hrecording]
  · intro hreads hfamily
    obtain ⟨after, hrun, hafter⟩ := run_of_unreadable hbank hreads hfamily hwords address
    exact ⟨after, hrun, hafter,
      agreeOutside_staging ⟨chip.family, bank.registers, touched⟩ address data⟩

/-- An `adau1x0x` on a register bank with core control set. -/
def presetChip : Chip :=
  { family := .adau1x0x
    transport := .memory (({} : Bank).preload controlRegister [0x00, 0x1C])
    useSafeload := true }

/-- Two words of which the second goes to the first register. -/
theorem refinesWrite_wrapping :
    presetChip.transport = .memory (({} : Bank).preload controlRegister [0x00, 0x1C]) ∧
      ([1, 2, 3, 4, 5, 6, 7, 8] : Bytes).length = 4 * 2 ∧ 0 < 2 ∧ 2 ≤ capacity ∧
      (presetChip.family = .adau1x0x → ∀ slot ∈ slots.drop 2, slot.2 ∉ ([] : List UInt16)) ∧
      RefinesWrite presetChip (({} : Bank).preload controlRegister [0x00, 0x1C]) [] 0xFFFF
        [1, 2, 3, 4, 5, 6, 7, 8] :=
  have hwhole : ([1, 2, 3, 4, 5, 6, 7, 8] : Bytes).length = 4 * 2 := rfl
  have hpos : 0 < 2 := by decide
  have hcapacity : 2 ≤ capacity := by decide
  ⟨rfl, hwhole, hpos, hcapacity, by simp,
    refinesWrite_of_whole rfl hwhole hpos hcapacity (by simp) 0xFFFF⟩

/-- Direct writes that fill the last slot of `adau1x0x` with a word for register 0x0100. -/
def fillLastSlot : List BankAccess :=
  [.write 0x0819 [0x01, 0x00], .write 0x0814 [0x00, 0x09, 0x09, 0x09, 0x09]]

/-- The register bank that the last slot was filled on. -/
def filledBank : Bank := ({} : Bank).follow fillLastSlot

/-- The chip that takes words over behind the same writes. -/
def filledDevice : Device := Device.follow ⟨.adau1x0x, .empty, []⟩ fillLastSlot

/-- An `adau1x0x` on the register bank that the last slot was filled on. -/
def filledChip : Chip :=
  { family := .adau1x0x, transport := .memory filledBank, useSafeload := true }

/-- A slot that direct writes filled is taken over by the next safeload, also if that does not use
it: the word of the slot goes to a register that a direct write of the data leaves alone. -/
theorem not_refinesWrite_filledSlot :
    filledDevice.registers = filledBank.registers ∧ filledBank.failsReads = false ∧
      (0x0020 : UInt16) ∉ interface .adau1x0x ∧
      ¬RefinesWrite filledChip filledBank filledDevice.touched 0x0020 [1, 2, 3, 4] := by
  refine ⟨rfl, rfl, by decide, fun h => ?_⟩
  obtain ⟨control, _, hcontrol, _, _, _, _, hagree, _⟩ := h.readable rfl
  obtain rfl : [0, 0] = control := Except.ok.inj hcontrol
  have hsame := hagree 0x0100 (by decide)
  have htaken : (Device.follow ⟨.adau1x0x, filledBank.registers, filledDevice.touched⟩
      (course .adau1x0x [0, 0] 0x0020 [1, 2, 3, 4])).registers.get? 0x0100 = some [9, 9, 9, 9] :=
        rfl
  have hkept : (filledBank.write 0x0020 [1, 2, 3, 4]).registers.get? 0x0100 = none := rfl
  rw [hkept] at hsame
  cases htaken.symm.trans hsame

end Safeload

end TuningBridge
