import TuningBridge.Proofs.FrameBounds
import TuningBridge.Proofs.Staging

/-!
# Frames of a safeload

The staging registers of `adau14xx` take four bytes, so each of their writes goes out in one frame
wherever a frame has room for a word.  The data registers of `adau1x0x` take five: each of their
writes goes out in one frame if and only if a frame has room for two words.  Valid settings grant
one word only.
-/

namespace TuningBridge

/-- The frames of register writes that were sent so far, failed ones too. -/
def Transport.frames (transport : Transport) : List Transaction :=
  (transport.transfers.map (·.transaction)).filter Transaction.isSending

/-- Every register write of a safeload goes out in one frame that is addressed to its register. -/
def Safeload.OneFrameEach (chip : Chip) (port : Port) (address : UInt16) (data : Bytes) : Prop :=
  (ChipM.final (run address data) chip).transport.frames =
    chip.transport.frames ++ (registerWrites chip address data).map port.wholeFrame

namespace Port

theorem sending_inj (port : Port) {first second : Bytes}
    (h : port.sending first = port.sending second) : first = second := by
  cases port with
  | spi => exact Transaction.spiWrite.inj h
  | i2c device => exact (Transaction.i2cWrite.inj h).2

/-- All transactions of a register write send frames. -/
theorem filter_transactions (port : Port) (words : Nat) (write : UInt16 × Bytes) (count : Nat) :
    ((port.transactions words write).take count).filter Transaction.isSending =
      (port.transactions words write).take count := by
  refine List.filter_eq_self.mpr fun transaction htransaction => ?_
  obtain ⟨chunk, _, rfl⟩ := List.mem_map.mp (List.mem_of_mem_take htransaction)
  exact port.isSending_sending _

end Port

namespace Chip

variable {chip : Chip} {port : Port} {words : Nat} {wire : Wire}

/-- Register writes send as many of their frames as they attempt. -/
theorem exists_frames (hbus : chip.transport = .bus port words wire)
    (writes : List (UInt16 × Bytes)) :
    ∃ attempts : List Attempt, attempts.map (·.write) = writes ∧
      (chip.afterWrites writes).transport.frames = chip.transport.frames ++
        attempts.flatMap fun attempt =>
          (port.transactions words attempt.write).take (attempt.done + 1) := by
  obtain ⟨attempts, next, hwrites, _, hnext, hcarries, _⟩ := chip.exists_attempts hbus writes
  refine ⟨attempts, hwrites, ?_⟩
  rw [hnext, hbus]
  simp only [Transport.frames, Transport.transfers, hcarries.traffic, List.map_append,
    List.filter_append, List.map_flatMap, List.filter_flatMap, Attempt.map_transaction_transfers,
    Port.filter_transactions]

/-- Writes for which there is room in a frame go out in one frame each. -/
theorem frames_afterWrites (hbus : chip.transport = .bus port words wire)
    {writes : List (UInt16 × Bytes)}
    (h : ∀ write ∈ writes, write.2 ≠ [] ∧ write.2.length ≤ 4 * min words Chunk.maxWords) :
    (chip.afterWrites writes).transport.frames =
      chip.transport.frames ++ writes.map port.wholeFrame := by
  obtain ⟨attempts, hwrites, hframes⟩ := exists_frames hbus writes
  have hwhole : ∀ attempt ∈ attempts,
      (port.transactions words attempt.write).take (attempt.done + 1) =
        [port.wholeFrame attempt.write] := by
    intro attempt hattempt
    obtain ⟨hne, hle⟩ := h attempt.write (hwrites ▸ List.mem_map_of_mem hattempt)
    rw [Port.transactions_of_le hne (.inr hle), List.take_succ_cons, List.take_nil]
  rw [hframes, ← hwrites, List.map_map, List.flatMap_def, List.map_congr_left hwhole,
    ← List.flatMap_def, ← List.map_eq_flatMap]
  rfl

/-- No frame of a register write has more words than there is room for. -/
theorem exists_chunk_of_mem_frames (hbus : chip.transport = .bus port words wire) (hpos : 0 < words)
    (writes : List (UInt16 × Bytes)) :
    ∃ sent, (chip.afterWrites writes).transport.frames = chip.transport.frames ++ sent ∧
      ∀ transaction ∈ sent, ∃ chunk : Chunk,
        transaction = port.sending (port.frame chunk) ∧ chunk.payload.length ≤ 4 * words := by
  obtain ⟨attempts, _, hframes⟩ := exists_frames hbus writes
  refine ⟨_, hframes, fun transaction htransaction => ?_⟩
  obtain ⟨attempt, _, hmem⟩ := List.mem_flatMap.mp htransaction
  obtain ⟨chunk, hchunk, rfl⟩ := List.mem_map.mp (List.mem_of_mem_take hmem)
  exact ⟨chunk, rfl, Chunk.length_payload_le hpos hchunk⟩

/-- A read on a bus sends no frame of a register write. -/
theorem exists_afterRead_frames (hbus : chip.transport = .bus port words wire) (address : UInt16)
    (length : Nat) :
    ∃ next, (chip.afterRead address length).transport = .bus port words next ∧
      (chip.afterRead address length).transport.frames = chip.transport.frames := by
  obtain ⟨next, _, hnext, _, hread⟩ := chip.exists_afterRead hbus address length
  refine ⟨next, hnext, ?_⟩
  rw [hnext, hbus]
  rcases hread with ⟨_, _, hcarries⟩ | ⟨_, hcarries⟩
  all_goals simp [Transport.frames, Transport.transfers, hcarries.traffic, Port.isSending_reading]

end Chip

namespace Safeload

variable {chip : Chip} {port : Port} {words : Nat} {wire : Wire} {address : UInt16} {data : Bytes}
  {write : UInt16 × Bytes}

/-- The first slot is filled if there is a word. -/
theorem exists_slotData_mem_staging (address : UInt16) (hne : data ≠ []) :
    ∃ word, (0x0810, slotData word) ∈ staging .adau1x0x address data := by
  cases hwords : Bytes.words data with
  | nil =>
    have hcount := Bytes.length_words data
    rw [hwords, Bytes.wordCount, List.length_nil] at hcount
    exact absurd (List.length_eq_zero_iff.mp (by omega)) hne
  | cons word rest =>
    refine ⟨word, ?_⟩
    simp [staging, hardwareWrites, hwords, slots]

/-- A commit has a word or the two bytes of core control. -/
theorem length_of_mem_commit (h : write ∈ (commit? chip address data).toList) :
    0 < write.2.length ∧ write.2.length ≤ 4 := by
  rw [commit?] at h
  split at h
  · rw [List.mem_singleton.mp h, length_countWrite]
    decide
  · split at h
    · rw [List.mem_singleton.mp h, length_controlWrite]
      decide
    · cases h

/-- What is staged is on a bus, and the frames sent are those of the staging writes. -/
private theorem exists_beforeCommit (hbus : chip.transport = .bus port words wire)
    (address : UInt16) (data : Bytes) :
    ∃ next, (beforeCommit chip address data).transport = .bus port words next ∧
      (beforeCommit chip address data).transport.frames =
        (staged chip address data).transport.frames := by
  obtain ⟨_, middle, _, _, hmiddle, _, _⟩ :=
    chip.exists_attempts hbus (staging chip.family address data)
  rw [beforeCommit]
  split
  · exact ⟨middle, hmiddle, rfl⟩
  · exact Chip.exists_afterRead_frames hmiddle controlRegister 2

/-- Where all register writes fit into frames they go out in one frame each. -/
theorem oneFrameEach_of_le (hbus : chip.transport = .bus port words wire)
    (hcapacity : Bytes.wordCount data ≤ capacity) (hwords : 0 < words)
    (hfit : ∀ write ∈ staging chip.family address data,
      write.2 ≠ [] ∧ write.2.length ≤ 4 * min words Chunk.maxWords) :
    OneFrameEach chip port address data := by
  obtain ⟨next, hnext, hframes⟩ := exists_beforeCommit hbus address data
  have hcommit : ∀ write ∈ (commit? chip address data).toList,
      write.2 ≠ [] ∧ write.2.length ≤ 4 * min words Chunk.maxWords := by
    intro write hwrite
    obtain ⟨hpos, hle⟩ := length_of_mem_commit hwrite
    refine ⟨List.length_pos_iff.mp hpos, ?_⟩
    simp only [Chunk.maxWords]
    omega
  rw [OneFrameEach, final_run hcapacity, Chip.frames_afterWrites hnext hcommit, hframes, staged,
    Chip.frames_afterWrites hbus hfit, registerWrites, List.map_append, List.append_assoc]

/-- A slot of five bytes does not go out in one frame that has room for one word. -/
theorem not_oneFrameEach (hbus : chip.transport = .bus port 1 wire)
    (hfamily : chip.family = .adau1x0x) (hcapacity : Bytes.wordCount data ≤ capacity)
    (hne : data ≠ []) : ¬OneFrameEach chip port address data := by
  intro hone
  obtain ⟨next, hnext, hframes⟩ := exists_beforeCommit hbus address data
  obtain ⟨first, hfirst, hsmall⟩ :=
    Chip.exists_chunk_of_mem_frames hbus (by decide) (staging chip.family address data)
  obtain ⟨second, hsecond, hsmall'⟩ :=
    Chip.exists_chunk_of_mem_frames hnext (by decide) (commit? chip address data).toList
  rw [OneFrameEach, final_run hcapacity, hsecond, hframes, staged, hfirst, List.append_assoc,
    List.append_cancel_left_eq] at hone
  obtain ⟨word, hword⟩ := exists_slotData_mem_staging address hne
  have hsent : port.wholeFrame (0x0810, slotData word) ∈ first ++ second := by
    rw [hone, registerWrites, hfamily]
    exact List.mem_map_of_mem (List.mem_append_left _ hword)
  obtain ⟨chunk, heq, hle⟩ : ∃ chunk : Chunk,
      port.wholeFrame (0x0810, slotData word) = port.sending (port.frame chunk) ∧
        chunk.payload.length ≤ 4 * 1 :=
    (List.mem_append.mp hsent).elim (hsmall _) (hsmall' _)
  have hlength := congrArg List.length (port.sending_inj heq)
  rw [Port.length_frame, Port.length_frame, length_slotData] at hlength
  omega

/-- Where frames have room for two words all staging writes fit, and on `adau14xx` they do in any
case. -/
private theorem fits_of_room {family : Family} {room : Nat} (hpos : 0 < room)
    (hroom : family = .adau14xx ∨ data = [] ∨ 2 ≤ room) (h : write ∈ staging family address data) :
    write.2 ≠ [] ∧ write.2.length ≤ 4 * room := by
  have hlength : 0 < write.2.length ∧ write.2.length ≤ 4 * room := by
    cases family with
    | adau14xx =>
      obtain ⟨hne, hle⟩ := length_of_mem_staging_adau14xx h
      omega
    | adau1x0x =>
      rcases hroom with hfamily | rfl | hroom
      · cases hfamily
      · cases h
      · have hwidth := length_of_mem_staging_adau1x0x h
        omega
  exact ⟨List.length_pos_iff.mp hlength.1, hlength.2⟩

/-- On a bus of valid settings every register write of a safeload goes out in one frame if and only
if the chip is an `adau14xx`, there is no word to stage, or frames have room for two words. -/
theorem oneFrameEach_iff (settings : Settings) (wire : Wire) (address : UInt16) (data : Bytes)
    (hvalid : settings.validate = .ok ()) (hcapacity : Bytes.wordCount data ≤ capacity) :
    OneFrameEach (settings.dsp.chip (settings.dsp.transport wire)) settings.dsp.port address data ↔
      settings.dsp.family = .adau14xx ∨ data = [] ∨
        settings.dsp.leastFrameBytes + 4 ≤ settings.dsp.frameBytes := by
  obtain ⟨hleast, hceiling⟩ := Settings.frameBytes_of_valid hvalid
  have hbus : (settings.dsp.chip (settings.dsp.transport wire)).transport =
      .bus settings.dsp.port
        (Chunk.wordsPerFrame settings.dsp.frameBytes settings.dsp.port.headerLength) wire :=
    rfl
  have hwords : 0 < Chunk.wordsPerFrame settings.dsp.frameBytes settings.dsp.port.headerLength := by
    simp only [DspSettings.leastFrameBytes] at hleast
    rw [Chunk.wordsPerFrame]
    omega
  by_cases hroom : settings.dsp.family = .adau14xx ∨ data = [] ∨
      settings.dsp.leastFrameBytes + 4 ≤ settings.dsp.frameBytes
  · refine iff_of_true (oneFrameEach_of_le hbus hcapacity hwords fun write hwrite => ?_) hroom
    refine fits_of_room ?_ (hroom.imp_right (Or.imp_right fun htwo => ?_)) hwrite
    · simp only [Chunk.maxWords]
      omega
    · simp only [DspSettings.leastFrameBytes] at htwo
      simp only [Chunk.wordsPerFrame, Chunk.maxWords]
      omega
  · refine iff_of_false ?_ hroom
    obtain ⟨hother, hne, hsmall⟩ := not_or.mp hroom |>.imp_right not_or.mp
    have hfamily : settings.dsp.family = .adau1x0x := by
      cases hfamily : settings.dsp.family with
      | adau14xx => exact absurd hfamily hother
      | adau1x0x => rfl
    have hone : Chunk.wordsPerFrame settings.dsp.frameBytes settings.dsp.port.headerLength = 1 := by
      simp only [DspSettings.leastFrameBytes] at hleast hsmall
      rw [Chunk.wordsPerFrame]
      omega
    rw [hone] at hbus
    exact not_oneFrameEach hbus hfamily hcapacity hne

/-- With the frames that a bus has unless told otherwise there is room for two words. -/
theorem oneFrameEach_defaultFrames :
    ({ dsp := { family := .adau1x0x, protocol := .i2c } } : Settings).validate = .ok () ∧
      Bytes.wordCount [1, 2, 3, 4] ≤ capacity ∧
      OneFrameEach
        { family := .adau1x0x, transport := .onBus (.i2c 0x38) 1024 {}, useSafeload := true }
        (.i2c 0x38) 0x20 [1, 2, 3, 4] :=
  ⟨rfl, by decide,
    (oneFrameEach_iff { dsp := { family := .adau1x0x, protocol := .i2c } } {} 0x20 [1, 2, 3, 4]
    rfl (by decide)).mpr (.inr (.inr (by decide)))⟩

/-- Frames with room for one word on a bus to an `adau1x0x`. -/
def oneWordFrames : Settings := { dsp := { family := .adau1x0x, givenFrameBytes := some 7 } }

-- The last byte of the slot goes to the register behind it, which belongs to the second slot.
example :
    (ChipM.final (run 0x20 [1, 2, 3, 4])
        (oneWordFrames.dsp.chip (oneWordFrames.dsp.transport {}))).transport.frames =
      [.spiWrite [0, 0x08, 0x15, 0, 0x20], .spiWrite [0, 0x08, 0x10, 0, 1, 2, 3],
        .spiWrite [0, 0x08, 0x11, 4], .spiWrite [0, 0x08, 0x1C, 0, 0x20]] := by decide +kernel

/-- Valid settings do not suffice for every register write to go out in one frame. -/
theorem not_oneFrameEach_of_valid :
    ¬∀ (settings : Settings) (wire : Wire) (address : UInt16) (data : Bytes),
      settings.validate = .ok () → Bytes.wordCount data ≤ capacity →
        OneFrameEach (settings.dsp.chip (settings.dsp.transport wire)) settings.dsp.port address
          data :=
  fun h => not_oneFrameEach rfl rfl (by decide) (List.cons_ne_nil _ _)
    (h oneWordFrames {} 0x20 [1, 2, 3, 4] rfl (by decide))

end Safeload

end TuningBridge
