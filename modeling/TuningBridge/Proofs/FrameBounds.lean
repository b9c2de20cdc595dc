import TuningBridge.Proofs.Frames
import TuningBridge.Settings.Basic

/-!
# Bounds of frames

Valid settings leave room for 1 to 16383 words behind the header of a frame.  On the bus of such
settings the frames of a register write hold its data in order, none of them is longer than a frame
may be, and all but the last have as many words as there is room for.  A size of frames that is
given with less room than one word, or beyond the ceiling, is refused.
-/

namespace TuningBridge

namespace Port

/-- The frames of a register write. -/
def frames (port : Port) (words : Nat) (write : UInt16 × Bytes) : List Bytes :=
  (Chunk.ofWrite write.1 write.2 words).map port.frame

/-- How frames of a bounded size carry the data of a register write. -/
structure Fills (port : Port) (most : Nat) (data : Bytes) (frames : List Bytes) : Prop where
  /-- Every frame has a header and something behind it. -/
  headed : ∀ frame ∈ frames, ∃ address payload,
    frame = port.header address ++ payload ∧ payload ≠ []
  /-- What is behind the headers is the data. -/
  payloads : (frames.flatMap fun frame => frame.drop port.headerLength) = data
  /-- No frame has more bytes than it may have, -/
  fits : ∀ frame ∈ frames, frame.length ≤ most
  /-- and none but the last has room for another word. -/
  full : ∀ frame ∈ frames.dropLast, ∃ words, frame.length = port.headerLength + 4 * words ∧
    most < port.headerLength + 4 * (words + 1)

/-- The bytes in front of a payload are as many as the port says. -/
theorem length_header (port : Port) (address : UInt16) :
    (port.header address).length = port.headerLength := by
  cases port with
  | spi => rw [header, headerLength, List.length_cons, Bytes.ofUInt16, Bytes.length_ofNat]
  | i2c device => rw [header, headerLength, Bytes.ofUInt16, Bytes.length_ofNat]

/-- A frame is a header and a payload. -/
theorem length_frame (port : Port) (chunk : Chunk) :
    (port.frame chunk).length = port.headerLength + chunk.payload.length := by
  rw [frame, List.length_append, length_header]

/-- The transactions of a write send one frame for every chunk. -/
theorem transactions_eq (port : Port) (words : Nat) (write : UInt16 × Bytes) :
    port.transactions words write = (port.frames words write).map port.sending := by
  rw [transactions, frames, List.map_map]
  rfl

/-- Behind its header a frame has the payload of its chunk. -/
theorem drop_frame (port : Port) (chunk : Chunk) :
    (port.frame chunk).drop port.headerLength = chunk.payload :=
  List.drop_left' (port.length_header chunk.address)

/-- Frames with room for a word, and below the ceiling, are filled with as many words as go into
them. -/
theorem fills_frames {port : Port} {most : Nat} (hleast : port.headerLength + 4 ≤ most)
    (hmost : most ≤ frameBytesCeiling) (write : UInt16 × Bytes) :
    port.Fills most write.2 (port.frames (Chunk.wordsPerFrame most port.headerLength) write) := by
  -- below the ceiling go fewer words than an address steps over
  have hwords : min (Chunk.wordsPerFrame most port.headerLength) Chunk.maxWords =
      (most - port.headerLength) / 4 := by
    simp only [frameBytesCeiling] at hmost
    rw [Chunk.wordsPerFrame, Chunk.maxWords]
    omega
  have hcarries :=
    Chunk.carries_ofWrite write.1 write.2 (Chunk.wordsPerFrame most port.headerLength)
  rw [hwords] at hcarries
  have hpos : 0 < (most - port.headerLength) / 4 := by omega
  constructor
  · intro frame hframe
    obtain ⟨chunk, hchunk, rfl⟩ := List.mem_map.mp hframe
    exact ⟨chunk.address, chunk.payload, rfl, hcarries.nonempty chunk hchunk⟩
  · rw [frames, List.flatMap_map]
    simp only [drop_frame]
    exact hcarries.payloads
  · intro frame hframe
    obtain ⟨chunk, hchunk, rfl⟩ := List.mem_map.mp hframe
    have hlength := hcarries.fits hpos chunk hchunk
    rw [length_frame]
    omega
  · intro frame hframe
    rw [frames, ← List.map_dropLast] at hframe
    obtain ⟨chunk, hchunk, rfl⟩ := List.mem_map.mp hframe
    refine ⟨(most - port.headerLength) / 4, ?_, by omega⟩
    rw [length_frame, hcarries.full hpos chunk hchunk]

end Port

/-- Why the size of frames is refused, if it is. -/
def DspSettings.refusal? (dsp : DspSettings) : Option ConfigurationError :=
  if dsp.frameBytes < dsp.leastFrameBytes then
    some (.frameTooSmall dsp.frameBytes dsp.leastFrameBytes)
  else if frameBytesCeiling < dsp.frameBytes then
    some (.frameTooLarge dsp.frameBytes frameBytesCeiling)
  else none

/-- Frames are not refused just if they are neither too small nor too large. -/
theorem DspSettings.refusal?_eq_none_iff {dsp : DspSettings} :
    dsp.refusal? = none ↔
      dsp.leastFrameBytes ≤ dsp.frameBytes ∧ dsp.frameBytes ≤ frameBytesCeiling := by
  rw [refusal?]
  split
  · simp only [reduceCtorEq, false_iff]
    omega
  · split
    · simp only [reduceCtorEq, false_iff]
      omega
    · simp only [true_iff]
      omega

namespace Settings

/-- What the bus of settings makes of register writes. -/
structure BoundsFrames (settings : Settings) : Prop where
  /-- A frame has room for 1 to 16383 words. -/
  room : ∀ wire, ∃ words, settings.dsp.transport wire = .bus settings.dsp.port words wire ∧
    1 ≤ words ∧ words ≤ 16383
  /-- A register write puts frames on the bus that are filled with its data, up to the first one
  that fails, and leaves the bus as the settings have it. -/
  write : ∀ wire address data, ∃ (frames : List Bytes) (done : Nat) (next : Wire),
    settings.dsp.port.Fills settings.dsp.frameBytes data frames ∧
    ((settings.dsp.transport wire).write address data).2 = settings.dsp.transport next ∧
    wire.CarriesOut (Transfer.upTo (frames.map settings.dsp.port.sending) done) next ∧
    wire.StopsAfter frames.length done

/-- How settings are refused for the size of frames that they give. -/
structure RefusesFrames (settings : Settings) : Prop where
  /-- A frame has to have room for a word behind its header, -/
  small : ∀ bytes, settings.dsp.givenFrameBytes = some bytes →
    bytes < settings.dsp.port.headerLength + 4 →
    ∃ error, settings.validate = .error error ∧ ∀ address, settings.host.address = .ok address →
      error = .frameTooSmall bytes (settings.dsp.port.headerLength + 4)
  /-- and it has 65535 bytes at most. -/
  large : ∀ bytes, settings.dsp.givenFrameBytes = some bytes → 65535 < bytes →
    ∃ error, settings.validate = .error error ∧ ∀ address, settings.host.address = .ok address →
      error = .frameTooLarge bytes 65535

variable {settings : Settings} {address : IpAddress} {error : ConfigurationError}

/-- Without an address of the host settings are refused for that. -/
theorem validate_of_error (h : settings.host.address = .error error) :
    settings.validate = .error error := by
  rw [validate, h]
  rfl

/-- With an address of the host settings are refused for the size of frames only. -/
theorem validate_of_ok (h : settings.host.address = .ok address) :
    settings.validate = (settings.dsp.refusal?).elim (.ok ()) .error := by
  rw [validate, h, DspSettings.refusal?]
  by_cases hsmall : settings.dsp.frameBytes < settings.dsp.leastFrameBytes
  · simp only [hsmall, if_true]
    rfl
  · by_cases hlarge : frameBytesCeiling < settings.dsp.frameBytes
    · simp only [hsmall, hlarge, if_true, if_false]
      rfl
    · simp only [hsmall, hlarge, if_false]
      rfl

/-- Settings with a size of frames that is refused are refused, if not for the host's address. -/
theorem exists_error_of_refusal (h : settings.dsp.refusal? = some error) :
    ∃ cause, settings.validate = .error cause ∧
      ∀ address, settings.host.address = .ok address → cause = error := by
  cases haddress : settings.host.address with
  | error other => exact ⟨other, validate_of_error haddress, fun _ hok => nomatch hok⟩
  | ok address =>
    refine ⟨error, ?_, fun _ _ => rfl⟩
    rw [validate_of_ok haddress, h, Option.elim_some]

/-- Valid settings grant every frame a word and keep it below the ceiling. -/
theorem frameBytes_of_valid (hvalid : settings.validate = .ok ()) :
    settings.dsp.leastFrameBytes ≤ settings.dsp.frameBytes ∧
    settings.dsp.frameBytes ≤ frameBytesCeiling := by
  rw [← DspSettings.refusal?_eq_none_iff, Option.eq_none_iff_forall_ne_some]
  intro error hrefusal
  obtain ⟨cause, herror, -⟩ := exists_error_of_refusal hrefusal
  rw [hvalid] at herror
  cases herror

/-- Valid settings bound the frames of every write, whatever fails on the bus. -/
theorem boundsFrames_of_valid (hvalid : settings.validate = .ok ()) : settings.BoundsFrames := by
  obtain ⟨hleast, hmost⟩ := frameBytes_of_valid hvalid
  constructor
  · intro wire
    refine ⟨_, rfl, ?_⟩
    have hheader : 2 ≤ settings.dsp.port.headerLength := by
      cases settings.dsp.port <;> simp [Port.headerLength]
    simp only [DspSettings.leastFrameBytes] at hleast
    simp only [frameBytesCeiling] at hmost
    rw [Chunk.wordsPerFrame]
    omega
  · intro wire address data
    obtain ⟨done, next, hwrite, hcarries, hstops⟩ := Transport.exists_write settings.dsp.port
      (Chunk.wordsPerFrame settings.dsp.frameBytes settings.dsp.port.headerLength) wire
        (address, data)
    rw [Port.transactions_eq] at hcarries hstops
    rw [List.length_map] at hstops
    have hfills := Port.fills_frames hleast hmost (address, data)
    exact ⟨_, done, next, hfills, congrArg Prod.snd hwrite, hcarries, hstops⟩

/-- Settings with frames out of bounds are refused. -/
theorem refusesFrames (settings : Settings) : settings.RefusesFrames := by
  constructor
  · intro bytes hgiven hsmall
    have hbytes : settings.dsp.frameBytes = bytes := by
      rw [DspSettings.frameBytes, hgiven, Option.getD_some]
    apply exists_error_of_refusal
    rw [DspSettings.refusal?, hbytes, DspSettings.leastFrameBytes, if_pos hsmall]
  · intro bytes hgiven hlarge
    have hbytes : settings.dsp.frameBytes = bytes := by
      rw [DspSettings.frameBytes, hgiven, Option.getD_some]
    have hheader : settings.dsp.port.headerLength ≤ 3 := by
      cases settings.dsp.port <;> simp [Port.headerLength]
    apply exists_error_of_refusal
    rw [DspSettings.refusal?, hbytes, DspSettings.leastFrameBytes, if_neg (by omega),
      frameBytesCeiling, if_pos hlarge]

/-- Valid settings bound the frames of every register write, and a size of frames that is too small
or too large is not valid. -/
theorem frames_bounded (settings : Settings) :
    (settings.validate = .ok () → settings.BoundsFrames) ∧ settings.RefusesFrames :=
  ⟨boundsFrames_of_valid, refusesFrames settings⟩

/-- Frames of nine bytes on I2C, which have room for one word and three bytes more. -/
def nineByteFrames : Settings :=
  { dsp := { family := .adau14xx, protocol := .i2c, givenFrameBytes := some 9 } }

-- The three bytes are left free.
example : Port.frames (.i2c 0x38) (Chunk.wordsPerFrame 9 2) (0x20, [1, 2, 3, 4, 5, 6]) =
    [[0, 0x20, 1, 2, 3, 4], [0, 0x21, 5, 6]] := by decide +kernel

theorem frames_bounded_nineByteFrames :
    nineByteFrames.validate = .ok () ∧ nineByteFrames.BoundsFrames ∧ nineByteFrames.RefusesFrames :=
  have hvalid : nineByteFrames.validate = .ok () := rfl
  ⟨hvalid, (frames_bounded nineByteFrames).1 hvalid, (frames_bounded nineByteFrames).2⟩

end Settings

end TuningBridge
