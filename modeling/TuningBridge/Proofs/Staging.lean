import TuningBridge.Proofs.Access
import TuningBridge.Proofs.Words

/-!
# The course of a safeload

A safeload stages its words by register writes and then commits them by one more write: the number
of words on `adau14xx`, and core control with the transfer bit set on `adau1x0x`, where core control
is read in between.  Register writes return no failure, so only that read can keep a safeload within
the capacity from its commit.
-/

namespace TuningBridge

namespace Safeload

/-- The writes that come before the commit. -/
def staging : Family → UInt16 → Bytes → List (UInt16 × Bytes)
  | .adau14xx, address, data =>
    dataRegisters.zip (Bytes.words data) ++ [(addressRegister, Bytes.ofNat 4 address.toNat)]
  | .adau1x0x, address, data => hardwareWrites address data

/-- The commit of `adau14xx`: the number of words. -/
def countWrite (data : Bytes) : UInt16 × Bytes :=
  (countRegister, Bytes.ofNat 4 (Bytes.wordCount data))

/-- The commit of `adau1x0x`: core control as it was read, and the transfer bit. -/
def controlWrite (control : Bytes) : UInt16 × Bytes :=
  (controlRegister, Bytes.ofUInt16 (UInt16.ofNat control.toNat ||| transferBit))

theorem length_countWrite (data : Bytes) : (countWrite data).2.length = 4 := Bytes.length_ofNat 4 _

theorem length_controlWrite (control : Bytes) : (controlWrite control).2.length = 2 :=
  Bytes.length_ofNat 2 _

/-- The chip after the writes that come before the commit. -/
def staged (chip : Chip) (address : UInt16) (data : Bytes) : Chip :=
  chip.afterWrites (staging chip.family address data)

variable {chip : Chip} {address : UInt16} {data : Bytes} {write : UInt16 × Bytes}

theorem length_slotData (word : Bytes) : (slotData word).length = 5 := by
  rw [slotData, List.length_cons, Bytes.length_fit]

/-- Every staging write of `adau14xx` has one word at most. -/
theorem length_of_mem_staging_adau14xx (h : write ∈ staging .adau14xx address data) :
    0 < write.2.length ∧ write.2.length ≤ 4 := by
  rw [staging, List.mem_append] at h
  rcases h with h | h
  · exact Bytes.length_of_mem_words (List.of_mem_zip h).2
  · rw [List.mem_singleton.mp h, Bytes.length_ofNat]
    decide

/-- A staging write of `adau1x0x` has the two bytes of an address or the five of a slot. -/
theorem length_of_mem_staging_adau1x0x (h : write ∈ staging .adau1x0x address data) :
    write.2.length = 2 ∨ write.2.length = 5 := by
  obtain ⟨⟨⟨word, index⟩, slot⟩, _, hwrite⟩ := List.mem_flatMap.mp h
  rcases List.mem_cons.mp hwrite with rfl | hwrite
  · exact .inl (Bytes.length_ofNat 2 _)
  · rw [List.mem_singleton.mp hwrite]
    exact .inr (length_slotData word)

theorem softwareWrites_eq (address : UInt16) (data : Bytes) :
    softwareWrites address data = staging .adau14xx address data ++ [countWrite data] := by
  simp [softwareWrites, staging, countWrite]

/-- A safeload within the capacity is not refused. -/
private theorem run_eq (hcapacity : Bytes.wordCount data ≤ capacity) (chip : Chip) :
    (run address data).run chip =
      (match chip.family with
      | .adau14xx =>
        (softwareWrites address data).forM fun (register, word) => ChipM.write register word
      | .adau1x0x => do
        (hardwareWrites address data).forM fun (register, word) => ChipM.write register word
        startTransfer : ChipM Unit).run chip := by
  rw [run, if_neg (Nat.not_lt.mpr hcapacity)]
  rfl

/-- On `adau14xx` the commit follows in any case. -/
theorem run_adau14xx (hfamily : chip.family = .adau14xx)
    (hcapacity : Bytes.wordCount data ≤ capacity) :
    (run address data).run chip =
      .ok () ((staged chip address data).afterWrite (countWrite data)) := by
  rw [run_eq hcapacity, hfamily, ChipM.run_writes, softwareWrites_eq, Chip.afterWrites_append,
    staged, hfamily]
  rfl

/-- On `adau1x0x` the transfer is started when the words are staged. -/
theorem run_adau1x0x (hfamily : chip.family = .adau1x0x)
    (hcapacity : Bytes.wordCount data ≤ capacity) :
    (run address data).run chip = startTransfer.run (staged chip address data) := by
  rw [run_eq hcapacity, staged, hfamily]
  exact Actions.run_bind_ok (ChipM.run_writes chip _) _

/-- On `adau1x0x` the commit follows if core control is read. -/
theorem run_adau1x0x_ok {control : Bytes} (hfamily : chip.family = .adau1x0x)
    (hcapacity : Bytes.wordCount data ≤ capacity)
    (hread : ((staged chip address data).transport.read controlRegister 2).1 = .ok control) :
    (run address data).run chip =
      .ok () (((staged chip address data).afterRead controlRegister 2).afterWrite
        (controlWrite control)) := by
  rw [run_adau1x0x hfamily hcapacity]
  exact Actions.run_bind_ok (ChipM.run_readUInt16_ok hread) _

/-- On `adau1x0x` a safeload ends with the error of reading core control. -/
theorem run_adau1x0x_error {error : Error} (hfamily : chip.family = .adau1x0x)
    (hcapacity : Bytes.wordCount data ≤ capacity)
    (hread : ((staged chip address data).transport.read controlRegister 2).1 = .error error) :
    (run address data).run chip =
      .error error ((staged chip address data).afterRead controlRegister 2) := by
  rw [run_adau1x0x hfamily hcapacity]
  exact Actions.run_bind_error (ChipM.run_readUInt16_error hread) _

/-- The chip in front of the commit: on `adau1x0x` core control has been read. -/
def beforeCommit (chip : Chip) (address : UInt16) (data : Bytes) : Chip :=
  match chip.family with
  | .adau14xx => staged chip address data
  | .adau1x0x => (staged chip address data).afterRead controlRegister 2

/-- The commit of a safeload, if there is one: without core control `adau1x0x` has none. -/
def commit? (chip : Chip) (address : UInt16) (data : Bytes) : Option (UInt16 × Bytes) :=
  match chip.family with
  | .adau14xx => some (countWrite data)
  | .adau1x0x =>
    match ((staged chip address data).transport.read controlRegister 2).1 with
    | .ok control => some (controlWrite control)
    | .error _ => none

/-- All register writes of a safeload. -/
def registerWrites (chip : Chip) (address : UInt16) (data : Bytes) : List (UInt16 × Bytes) :=
  staging chip.family address data ++ (commit? chip address data).toList

/-- A safeload within the capacity stages its words and commits them, if it can. -/
theorem final_run (hcapacity : Bytes.wordCount data ≤ capacity) (chip : Chip) (address : UInt16) :
    ChipM.final (run address data) chip =
      (beforeCommit chip address data).afterWrites (commit? chip address data).toList := by
  cases hfamily : chip.family with
  | adau14xx =>
    rw [ChipM.final_of_ok (run_adau14xx hfamily hcapacity)]
    simp only [beforeCommit, commit?, hfamily]
    rfl
  | adau1x0x =>
    simp only [beforeCommit, commit?, hfamily]
    cases hread : ((staged chip address data).transport.read controlRegister 2).1 with
    | ok control =>
      rw [ChipM.final_of_ok (run_adau1x0x_ok hfamily hcapacity hread)]
      rfl
    | error error =>
      rw [ChipM.final_of_error (run_adau1x0x_error hfamily hcapacity hread)]
      rfl

end Safeload

end TuningBridge
