import TuningBridge.Proofs.Recall
import TuningBridge.Proofs.Takeover

/-!
# Data with a short last word

Data need not consist of whole words.  The slots of `adau1x0x` take a short last word padded with
zeros, while `adau14xx` stages it as short as it is.  So both families stage the same words, and all
writes of `adau14xx` have four bytes, if and only if the data consists of whole words.  They commit
the same number of words in any case.
-/

namespace TuningBridge

/-- Data consists of whole words just if all its words have four bytes. -/
theorem Bytes.forall_length_words_iff (data : Bytes) :
    (∀ word ∈ words data, word.length = 4) ↔ data.length % 4 = 0 := by
  constructor
  · intro h
    by_contra hshort
    have hlast : 4 * (data.length / 4) < data.length := by omega
    have hlength := h _ (List.mem_of_getElem? (getElem?_words hlast))
    rw [List.length_take, List.length_drop] at hlength
    omega
  · intro hwhole word hword
    exact length_of_mem_words_of_whole hwhole hword

namespace Safeload

/-- What a register holds after writes, if one of them went there. -/
def held? (writes : List (UInt16 × Bytes)) (register : UInt16) : Option Bytes :=
  (RegisterMap.empty.puts writes).get? register

/-- The word that `adau14xx` stages in the data register with a number. -/
def stagedWord? (address : UInt16) (data : Bytes) (index : Nat) : Option Bytes :=
  (dataRegisters[index]?).bind (held? (softwareWrites address data))

/-- The last four bytes that `adau1x0x` puts into the data slot with a number. -/
def slotWord? (address : UInt16) (data : Bytes) (index : Nat) : Option Bytes :=
  (slots[index]?).bind fun slot => (held? (hardwareWrites address data) slot.2).map Device.lastWord

/-- The number of words that `adau14xx` is told to take over. -/
def countedWords? (address : UInt16) (data : Bytes) : Option Nat :=
  (held? (softwareWrites address data) countRegister).map Bytes.toNat

/-- The number of data slots that `adau1x0x` fills. -/
def filledSlots (address : UInt16) (data : Bytes) : Nat :=
  slots.countP fun slot => (held? (hardwareWrites address data) slot.2).isSome

variable {address : UInt16} {data : Bytes} {writes : List (UInt16 × Bytes)} {write : UInt16 × Bytes}

/-- A register that is written once holds what was written. -/
theorem held?_of_mem (hnodup : (writes.map Prod.fst).Nodup) (h : write ∈ writes) :
    held? writes write.1 = some write.2 :=
  RegisterMap.get?_puts_of_mem hnodup h

theorem held?_of_notMem {register : UInt16} (h : register ∉ writes.map Prod.fst) :
    held? writes register = none :=
  (RegisterMap.get?_puts_of_notMem h).trans (RegisterMap.get?_empty register)

theorem map_fst_softwareWrites (address : UInt16) (data : Bytes) :
    (softwareWrites address data).map Prod.fst =
      dataRegisters.take (Bytes.wordCount data) ++ [addressRegister, countRegister] := by
  rw [softwareWrites, List.map_append, (map_zip _ _).1, Bytes.length_words]
  rfl

private theorem nodup_softwareRegisters :
    (dataRegisters ++ [addressRegister, countRegister]).Nodup := by
  decide

/-- `adau14xx` writes to every register once at most. -/
theorem nodup_softwareWrites (address : UInt16) (data : Bytes) :
    ((softwareWrites address data).map Prod.fst).Nodup := by
  rw [map_fst_softwareWrites]
  exact ((List.take_sublist _ _).append_right _).nodup nodup_softwareRegisters

/-- The word with an index is staged in the data register of that index. -/
theorem mem_softwareWrites {index : Nat} (hword : index < (Bytes.words data).length)
    (hregister : index < dataRegisters.length) :
    (dataRegisters[index], (Bytes.words data)[index]) ∈ softwareWrites address data := by
  rw [softwareWrites_eq]
  exact List.mem_append_left _ (mem_staging_adau14xx hword hregister)

/-- A data register behind those of the words is not written. -/
theorem notMem_softwareWrites {index : Nat} (hword : Bytes.wordCount data ≤ index)
    (hregister : index < dataRegisters.length) :
    dataRegisters[index] ∉ (softwareWrites address data).map Prod.fst := by
  obtain ⟨hnodup, -, hlast⟩ := List.nodup_append.mp nodup_softwareRegisters
  rw [← List.take_append_drop (Bytes.wordCount data) dataRegisters] at hnodup
  have htaken := (List.nodup_append.mp hnodup).2.2
  have hbehind : dataRegisters[index] ∈ dataRegisters.drop (Bytes.wordCount data) :=
    List.mem_drop_iff_getElem.mpr ⟨index - Bytes.wordCount data, by omega, by simp [hword]⟩
  rw [map_fst_softwareWrites, List.mem_append]
  rintro (hmem | hmem)
  · exact htaken _ hmem _ hbehind rfl
  · exact hlast _ (List.getElem_mem hregister) _ hmem rfl

/-- A data register holds its word if there is one for it, and otherwise nothing. -/
theorem held?_dataRegister (address : UInt16) (data : Bytes) {index : Nat}
    (hregister : index < dataRegisters.length) :
    held? (softwareWrites address data) dataRegisters[index] = (Bytes.words data)[index]? := by
  have hcount := Bytes.length_words data
  by_cases hword : index < (Bytes.words data).length
  · rw [List.getElem?_eq_getElem hword]
    exact held?_of_mem (nodup_softwareWrites address data) (mem_softwareWrites hword hregister)
  · rw [List.getElem?_eq_none (Nat.not_lt.mp hword)]
    exact held?_of_notMem (notMem_softwareWrites (by omega) hregister)

/-- A slot holds its word if there is one for it, padded with zeros, and otherwise nothing. -/
theorem held?_slot (address : UInt16) (data : Bytes) {index : Nat} (hslot : index < slots.length) :
    held? (hardwareWrites address data) slots[index].2 =
      ((Bytes.words data)[index]?).map slotData := by
  have hcount := Bytes.length_words data
  by_cases hword : index < (Bytes.words data).length
  · rw [List.getElem?_eq_getElem hword, Option.map_some]
    exact held?_of_mem (nodup_staging .adau1x0x address data)
      (mem_staging_adau1x0x address hword hslot).2
  · rw [List.getElem?_eq_none (Nat.not_lt.mp hword), Option.map_none]
    have hbehind : slots[index] ∈ slots.drop (Bytes.wordCount data) :=
      List.mem_drop_iff_getElem.mpr
        ⟨index - Bytes.wordCount data, by omega, by simp [← hcount, Nat.not_lt.mp hword]⟩
    refine held?_of_notMem ?_
    rw [map_fst_hardwareWrites]
    exact (notMem_of_mem_drop_slots hbehind).2

/-- Where there is a place for every value, the values are found in their places. -/
private theorem getElem?_bind_eq {α β : Type} {places : List α} {values : List β}
    {found : α → Option β} (hle : values.length ≤ places.length)
    (h : ∀ index, (hplace : index < places.length) → found places[index] = values[index]?)
    (index : Nat) : (places[index]?).bind found = values[index]? := by
  by_cases hplace : index < places.length
  · rw [List.getElem?_eq_getElem hplace, Option.bind_some, h index hplace]
  · have hvalue : values.length ≤ index := by omega
    rw [List.getElem?_eq_none (Nat.not_lt.mp hplace), List.getElem?_eq_none hvalue,
      Option.bind_none]

/-- `adau14xx` stages the words of the data as they are. -/
theorem stagedWord?_eq (hcapacity : Bytes.wordCount data ≤ capacity) (address : UInt16)
    (index : Nat) : stagedWord? address data index = (Bytes.words data)[index]? := by
  have hle : (Bytes.words data).length ≤ dataRegisters.length := Bytes.length_words data ▸ hcapacity
  exact getElem?_bind_eq hle (fun _ hregister => held?_dataRegister address data hregister) index

/-- `adau1x0x` fills its slots with the words of the data, padded with zeros. -/
theorem slotWord?_eq (hcapacity : Bytes.wordCount data ≤ capacity) (address : UInt16)
    (index : Nat) :
    slotWord? address data index = ((Bytes.words data)[index]?).map (Bytes.fit 4) := by
  have hle : ((Bytes.words data).map (Bytes.fit 4)).length ≤ slots.length := by
    rw [List.length_map, Bytes.length_words]
    exact hcapacity
  rw [← List.getElem?_map]
  refine getElem?_bind_eq hle (fun index hslot => ?_) index
  rw [held?_slot address data hslot, Option.map_map, List.getElem?_map]
  exact congrArg (Option.map · _) (funext lastWord_slotData)

/-- `adau14xx` is told to take over all words. -/
theorem countedWords?_eq (hcapacity : Bytes.wordCount data ≤ capacity) (address : UInt16) :
    countedWords? address data = some (Bytes.wordCount data) := by
  have hmem : countWrite data ∈ softwareWrites address data := by
    rw [softwareWrites_eq]
    exact List.mem_append_right _ (List.mem_singleton.mpr rfl)
  have hheld : held? (softwareWrites address data) countRegister = some (countWrite data).2 :=
    held?_of_mem (nodup_softwareWrites address data) hmem
  have hlt : Bytes.wordCount data < 256 ^ 4 := Nat.lt_of_le_of_lt hcapacity (by decide)
  rw [countedWords?, hheld, Option.map_some, countWrite, Bytes.toNat_ofNat, Nat.mod_eq_of_lt hlt]

/-- `adau1x0x` fills as many slots as there are words. -/
theorem filledSlots_eq (hcapacity : Bytes.wordCount data ≤ capacity) (address : UInt16) :
    filledSlots address data = Bytes.wordCount data := by
  have hcount := Bytes.length_words data
  have hroom : capacity = slots.length := rfl
  -- the first slots are filled
  have hfirst : ∀ slot ∈ slots.take (Bytes.wordCount data),
      (held? (hardwareWrites address data) slot.2).isSome = true := by
    intro slot hslot
    obtain ⟨index, hindex, rfl⟩ := List.mem_take_iff_getElem.mp hslot
    have hword : index < (Bytes.words data).length := by omega
    rw [held?_slot address data (by omega), List.getElem?_eq_getElem hword]
    rfl
  -- and no others
  have hothers : ∀ slot ∈ slots.drop (Bytes.wordCount data),
      ¬(held? (hardwareWrites address data) slot.2).isSome = true := by
    intro slot hslot
    obtain ⟨index, hindex, rfl⟩ := List.mem_drop_iff_getElem.mp hslot
    have hword : (Bytes.words data).length ≤ Bytes.wordCount data + index := by omega
    rw [held?_slot address data (by omega), List.getElem?_eq_none hword]
    exact Bool.false_ne_true
  rw [filledSlots, ← List.take_append_drop (Bytes.wordCount data) slots, List.countP_append,
    List.countP_eq_length.mpr hfirst, List.countP_eq_zero.mpr hothers, List.length_take]
  omega

/-- All writes of `adau14xx` have four bytes just if the data consists of whole words. -/
theorem forall_length_softwareWrites_iff (hcapacity : Bytes.wordCount data ≤ capacity)
    (address : UInt16) :
    (∀ write ∈ softwareWrites address data, write.2.length = 4) ↔ data.length % 4 = 0 := by
  rw [← Bytes.forall_length_words_iff]
  have hcount := Bytes.length_words data
  have hroom : capacity = dataRegisters.length := rfl
  constructor
  · intro hfour word hword
    obtain ⟨index, hindex, rfl⟩ := List.mem_iff_getElem.mp hword
    exact hfour _ (mem_softwareWrites hindex (by omega))
  · intro hwords write hwrite
    rw [softwareWrites, List.mem_append] at hwrite
    rcases hwrite with hwrite | hwrite
    · exact hwords _ (List.of_mem_zip hwrite).2
    · simp only [List.mem_cons, List.not_mem_nil, or_false] at hwrite
      rcases hwrite with rfl | rfl
      · exact Bytes.length_ofNat 4 _
      · exact Bytes.length_ofNat 4 _

/-- Both families stage the same words just if the data consists of whole words. -/
theorem forall_stagedWord?_iff (hcapacity : Bytes.wordCount data ≤ capacity) (address : UInt16) :
    (∀ index, stagedWord? address data index = slotWord? address data index) ↔
      data.length % 4 = 0 := by
  simp only [stagedWord?_eq hcapacity, slotWord?_eq hcapacity]
  rw [← Bytes.forall_length_words_iff]
  constructor
  · intro hsame word hword
    obtain ⟨index, hindex⟩ := List.mem_iff_getElem?.mp hword
    have hfit := hsame index
    rw [hindex, Option.map_some, Option.some_inj] at hfit
    exact Bytes.fit_eq_self_iff.mp hfit.symm
  · intro hwords index
    cases hindex : (Bytes.words data)[index]? with
    | none => rfl
    | some word =>
      have hfit := Bytes.fit_eq_self_iff.mpr (hwords word (List.mem_of_getElem? hindex))
      rw [Option.map_some, hfit]

/-- What the safeloads of both families stage and commit for the same data. -/
structure Stages (address : UInt16) (data : Bytes) : Prop where
  /-- `adau14xx` makes its writes and nothing else. -/
  software : ∀ chip : Chip, chip.family = .adau14xx →
    (run address data).run chip = .ok () (chip.afterWrites (softwareWrites address data))
  /-- `adau1x0x` makes its writes and then starts the transfer. -/
  hardware : ∀ chip : Chip, chip.family = .adau1x0x →
    (run address data).run chip = startTransfer.run (chip.afterWrites (hardwareWrites address data))
  /-- The words that `adau14xx` stages are the data, four bytes each and the last as many as there
  are. -/
  staged : ∀ index, stagedWord? address data index =
    if 4 * index < data.length then some ((data.drop (4 * index)).take 4) else none
  /-- The slots of `adau1x0x` hold the same words, a short last word padded with zeros. -/
  filled : ∀ index, slotWord? address data index =
    (stagedWord? address data index).map (Bytes.fit 4)
  /-- Both commit as many words as the data has, a short one included. -/
  counted : countedWords? address data = some (Bytes.wordCount data) ∧
    filledSlots address data = Bytes.wordCount data
  four_iff : (∀ write ∈ softwareWrites address data, write.2.length = 4) ↔ data.length % 4 = 0
  same_iff : (∀ index, stagedWord? address data index = slotWord? address data index) ↔
    data.length % 4 = 0

/-- Both families stage the same words, in writes of whole words, and commit as many. -/
structure InStep (address : UInt16) (data : Bytes) : Prop where
  four : ∀ write ∈ softwareWrites address data, write.2.length = 4
  same : ∀ index, stagedWord? address data index = slotWord? address data index
  count : countedWords? address data = some (filledSlots address data)

theorem stages_of_fits (hcapacity : Bytes.wordCount data ≤ capacity) (address : UInt16) :
    Stages address data where
  software chip hfamily := by
    rw [run_adau14xx hfamily hcapacity, softwareWrites_eq, Chip.afterWrites_append,
      Safeload.staged, hfamily]
    rfl
  hardware chip hfamily := by
    rw [run_adau1x0x hfamily hcapacity, Safeload.staged, hfamily]
    rfl
  staged index := by
    rw [stagedWord?_eq hcapacity]
    split
    · exact Bytes.getElem?_words ‹_›
    · refine List.getElem?_eq_none ?_
      rw [Bytes.length_words, Bytes.wordCount]
      omega
  filled index := by rw [slotWord?_eq hcapacity, stagedWord?_eq hcapacity]
  counted := ⟨countedWords?_eq hcapacity address, filledSlots_eq hcapacity address⟩
  four_iff := forall_length_softwareWrites_iff hcapacity address
  same_iff := forall_stagedWord?_iff hcapacity address

/-- Both families are in step for data within the capacity just if it consists of whole words. -/
theorem inStep_iff_whole (hcapacity : Bytes.wordCount data ≤ capacity) (address : UInt16) :
    Stages address data ∧ (InStep address data ↔ data.length % 4 = 0) := by
  have hstages := stages_of_fits hcapacity address
  refine ⟨hstages, fun hinStep => hstages.four_iff.mp hinStep.four, fun hwhole => ?_⟩
  exact
    { four := hstages.four_iff.mpr hwhole
      same := hstages.same_iff.mpr hwhole
      count := by rw [hstages.counted.1, hstages.counted.2] }

/-- Two whole words are staged alike. -/
theorem inStep_two_words :
    Bytes.wordCount [1, 2, 3, 4, 5, 6, 7, 8] ≤ capacity ∧ InStep 0x20 [1, 2, 3, 4, 5, 6, 7, 8] :=
  have hcapacity : Bytes.wordCount [1, 2, 3, 4, 5, 6, 7, 8] ≤ capacity := by decide
  ⟨hcapacity, (inStep_iff_whole hcapacity 0x20).2.mpr rfl⟩

/-- The fifth of five bytes is written alone, without the three zeros behind it. -/
theorem not_inStep_of_fits :
    ¬∀ (address : UInt16) (data : Bytes),
    Bytes.wordCount data ≤ capacity → InStep address data := by
  intro h
  have hfour := (h 0x20 [1, 2, 3, 4, 5] (by decide)).four (0x6001, [5]) (by decide)
  exact absurd hfour (by decide)

end Safeload

end TuningBridge
