import TuningBridge.Volume
import TuningBridge.Proofs.Encoding
import TuningBridge.Proofs.ReadOnly
import TuningBridge.Proofs.Staging

/-!
# What a volume request sets

A request first reads the gain that is set, which writes nothing.  It ends there if the gain cannot
be read, if the request is not a number, or if it stands for no finite gain.  Otherwise it sets one
word, which lies between silence and full scale.  Nothing is asked of the conversions between levels
and gains, or of the sum of two levels.
-/

namespace TuningBridge

namespace Chip

/-- The gain at an address, or the error of reading or of decoding it. -/
def gain? (chip : Chip) (address : UInt16) : Except Error Binary64 := do
  let data ← (chip.transport.read address 4).1
  Parameter.decode chip.family.fixedPoint (UInt32.ofNat data.toNat)

/-- The gain that a request stands for, when the chip has the given one. -/
def requested (chip : Chip) (gain level : Binary64) (relative : Bool) : Binary64 :=
  chip.scale.toLinear (if relative then (chip.scale.ofLinear gain).add level else level)

/-- A request that a chip with the given gain meets by setting a word. -/
structure Grants (chip : Chip) (gain level : Binary64) (relative : Bool) (word : UInt32) :
    Prop where
  isNumber : level.isNaN = false
  isFinite : (chip.requested gain level relative).isFinite = true
  /-- The word is the requested gain, moved between silence and full scale. -/
  encoded : chip.family.fixedPoint.encode? ((chip.requested gain level relative).clamp .zero .one) =
    some (word.toNat : Int)
  isGain : chip.family.fixedPoint.IsGain word

end Chip

namespace ChipM

open Safeload (staged controlRegister countWrite controlWrite)

variable {chip : Chip} {address : UInt16} {gain level : Binary64} {relative : Bool} {word : UInt32}
  {error : Error}

theorem run_fixedPoint (chip : Chip) : fixedPoint.run chip = .ok chip.family.fixedPoint chip := rfl

/-- The gain is what the register of four bytes is decoded as. -/
theorem run_getGain (chip : Chip) (address : UInt16) :
    (getGain address).run chip =
      (MonadExcept.ofExcept (chip.gain? address) : ChipM Binary64).run
        (chip.afterRead address 4) := by
  rw [Chip.gain?]
  cases hread : (chip.transport.read address 4).1 with
  | error error =>
    rw [Actions.error_bind, Actions.run_ofExcept_error]
    exact Actions.run_bind_error (run_readUInt32_error hread) _
  | ok data =>
    rw [Actions.ok_bind, getGain, Actions.run_bind_ok (run_readUInt32_ok hread),
      Actions.run_bind_ok (run_fixedPoint _), Chip.family_afterRead]

/-- A gain that can be read and decoded is returned. -/
theorem run_getGain_ok (h : chip.gain? address = .ok gain) :
    (getGain address).run chip = .ok gain (chip.afterRead address 4) := by
  rw [run_getGain, h, Actions.run_ofExcept_ok]

theorem run_getGain_error (h : chip.gain? address = .error error) :
    (getGain address).run chip = .error error (chip.afterRead address 4) := by
  rw [run_getGain, h, Actions.run_ofExcept_error]

/-- The level of a gain is returned. -/
theorem run_getLevel_ok (h : chip.gain? address = .ok gain) :
    (getLevel address).run chip = .ok (chip.scale.ofLinear gain) (chip.afterRead address 4) :=
  Actions.run_bind_ok (run_getGain_ok h) _

/-- Without a gain there is no level. -/
theorem run_getLevel_error (h : chip.gain? address = .error error) :
    (getLevel address).run chip = .error error (chip.afterRead address 4) :=
  Actions.run_bind_error (run_getGain_error h) _

/-- Reading a level writes nothing. -/
theorem unwritten_getLevel (chip : Chip) (address : UInt16) :
    chip.transport.Unwritten (final (getLevel address) chip).transport := by
  cases hgain : chip.gain? address with
  | ok gain =>
    rw [final_of_ok (run_getLevel_ok hgain)]
    exact chip.unwritten_afterRead address 4
  | error error =>
    rw [final_of_error (run_getLevel_error hgain)]
    exact chip.unwritten_afterRead address 4

/-- A request for a finite gain is granted: its encoding does not overflow. -/
theorem exists_grants (hnumber : level.isNaN = false)
    (hfinite : (chip.requested gain level relative).isFinite = true) :
    ∃ word, chip.Grants gain level relative word := by
  obtain ⟨word, hencode, hgain⟩ :=
    FixedPoint.exists_encode?_of_isGain (Binary64.isGain_clamp hfinite) chip.family.fixedPoint
  exact ⟨word, hnumber, hfinite, hencode, hgain⟩

/-- A request that is granted sets its word, and then the level is read back. -/
theorem run_setVolume_of_grants (hgain : chip.gain? address = .ok gain)
    (h : chip.Grants gain level relative word) :
    (setVolume level address relative).run chip =
      (do
        setWord address word
        note
          [.levelSet (chip.scale.ofLinear ((chip.requested gain level relative).clamp .zero .one))]
        getLevel address : ChipM Binary64).run (chip.afterRead address 4) := by
  have hnumber : ¬level.isNaN = true := by simp [h.isNumber]
  have hfinite := h.isFinite
  have hencoded := h.encoded
  rw [Chip.requested] at hfinite hencoded
  rw [setVolume, Actions.run_bind_ok (run_getLevel_ok hgain), if_neg hnumber]
  rw [Actions.run_bind_ok (EStateM.run_get _)]
  simp only [Chip.scale_afterRead, hfinite, Bool.not_true, Bool.false_eq_true, if_false]
  rw [Actions.run_bind_ok (run_fixedPoint _), Chip.family_afterRead, hencoded]
  simp only [FixedPoint.word_toNat]
  rfl

/-- A request that stands for no gain ends with the level that is set. -/
theorem run_setVolume_of_unset (hgain : chip.gain? address = .ok gain)
    (h : level.isNaN = true ∨ (chip.requested gain level relative).isFinite = false) :
    ∃ journal, (setVolume level address relative).run chip =
      .ok (chip.scale.ofLinear gain) { chip.afterRead address 4 with journal } := by
  rw [setVolume, Actions.run_bind_ok (run_getLevel_ok hgain)]
  by_cases hnan : level.isNaN = true
  · rw [if_pos hnan]
    exact ⟨_, rfl⟩
  · have hinfinite := h.resolve_left hnan
    rw [Chip.requested] at hinfinite
    rw [if_neg hnan, Actions.run_bind_ok (EStateM.run_get _)]
    simp only [Chip.scale_afterRead, hinfinite, Bool.not_false, if_true]
    exact ⟨_, rfl⟩

/-- What comes of a parameter word that is to be set: the result, and the chip behind it. -/
inductive WordCourse (chip : Chip) (address : UInt16) (word : UInt32) :
    EStateM.Result Error Chip Unit → Prop
  /-- Without safeload the word is written to its register. -/
  | direct : chip.useSafeload = false →
      WordCourse chip address word (.ok () (chip.afterWrite (address, Bytes.ofUInt32 word)))
  /-- On `adau14xx` the word is staged, and committed by the number of words. -/
  | counted : chip.useSafeload = true → chip.family = .adau14xx →
      WordCourse chip address word
        (.ok () ((staged chip address (Bytes.ofUInt32 word)).afterWrite
          (countWrite (Bytes.ofUInt32 word))))
  /-- On `adau1x0x` the word is staged, and committed by the transfer bit of core control. -/
  | started {control : Bytes} : chip.useSafeload = true → chip.family = .adau1x0x →
      ((staged chip address (Bytes.ofUInt32 word)).transport.read controlRegister 2).1 =
        .ok control →
      WordCourse chip address word (.ok ()
        (((staged chip address (Bytes.ofUInt32 word)).afterRead controlRegister 2).afterWrite
          (controlWrite control)))
  /-- Core control is not read, and the word is not committed. -/
  | unread {error : Error} : chip.useSafeload = true → chip.family = .adau1x0x →
      ((staged chip address (Bytes.ofUInt32 word)).transport.read controlRegister 2).1 =
        .error error →
      WordCourse chip address word
        (.error error ((staged chip address (Bytes.ofUInt32 word)).afterRead controlRegister 2))

/-- Without safeload a word is set by writing it. -/
theorem run_setWord_of_direct (huse : chip.useSafeload = false) (address : UInt16) (word : UInt32) :
    (setWord address word).run chip = .ok () (chip.afterWrite (address, Bytes.ofUInt32 word)) := by
  rw [setWord, Actions.run_bind_ok (EStateM.run_get _), huse, if_neg Bool.false_ne_true, run_write]

/-- A word is set in one of these ways. -/
theorem wordCourse (chip : Chip) (address : UInt16) (word : UInt32) :
    WordCourse chip address word ((setWord address word).run chip) := by
  have hcapacity : Bytes.wordCount (Bytes.ofUInt32 word) ≤ Safeload.capacity := by
    rw [Bytes.wordCount, Bytes.length_ofUInt32]
    decide
  cases huse : chip.useSafeload with
  | false =>
    rw [run_setWord_of_direct huse]
    exact .direct huse
  | true =>
    rw [setWord, Actions.run_bind_ok (EStateM.run_get _), huse, if_pos rfl]
    cases hfamily : chip.family with
    | adau14xx =>
      rw [Safeload.run_adau14xx hfamily hcapacity]
      exact .counted huse hfamily
    | adau1x0x =>
      cases hread :
        ((staged chip address (Bytes.ofUInt32 word)).transport.read controlRegister 2).1 with
      | ok control =>
        rw [Safeload.run_adau1x0x_ok hfamily hcapacity hread]
        exact .started huse hfamily hread
      | error error =>
        rw [Safeload.run_adau1x0x_error hfamily hcapacity hread]
        exact .unread huse hfamily hread

/-- What comes of a request: the result, and the chip behind it. -/
inductive VolumeCourse (chip : Chip) (level : Binary64) (address : UInt16) (relative : Bool) :
    EStateM.Result Error Chip Binary64 → Prop
  /-- The gain that is set cannot be read. -/
  | unread {error : Error} : chip.gain? address = .error error →
      VolumeCourse chip level address relative (.error error (chip.afterRead address 4))
  /-- The request stands for no gain; the result is the level that is set. -/
  | kept {gain : Binary64} {journal : Array Event} : chip.gain? address = .ok gain →
      level.isNaN = true ∨ (chip.requested gain level relative).isFinite = false →
      VolumeCourse chip level address relative
        (.ok (chip.scale.ofLinear gain) { chip.afterRead address 4 with journal })
  /-- A word is to be set, but its safeload fails. -/
  | failed {gain : Binary64} {word : UInt32} {error : Error} {after : Chip} :
      chip.gain? address = .ok gain → chip.Grants gain level relative word →
      WordCourse (chip.afterRead address 4) address word (.error error after) →
      VolumeCourse chip level address relative (.error error after)
  /-- A word is set, and the result is the level read back. -/
  | set {gain : Binary64} {word : UInt32} {after : Chip} {journal : Array Event} :
      chip.gain? address = .ok gain → chip.Grants gain level relative word →
      WordCourse (chip.afterRead address 4) address word (.ok () after) →
      VolumeCourse chip level address relative ((getLevel address).run { after with journal })

/-- A request takes one of these courses, whatever the level and the bus. -/
theorem volumeCourse (chip : Chip) (level : Binary64) (address : UInt16) (relative : Bool) :
    VolumeCourse chip level address relative ((setVolume level address relative).run chip) := by
  cases hgain : chip.gain? address with
  | error error =>
    have hrun : (setVolume level address relative).run chip =
        .error error (chip.afterRead address 4) :=
      Actions.run_bind_error (run_getLevel_error hgain) _
    rw [hrun]
    exact .unread hgain
  | ok gain =>
    by_cases hset : level.isNaN = false ∧ (chip.requested gain level relative).isFinite = true
    · obtain ⟨word, hgrants⟩ := exists_grants hset.1 hset.2
      have hcourse := wordCourse (chip.afterRead address 4) address word
      rw [run_setVolume_of_grants hgain hgrants]
      cases hword : (setWord address word).run (chip.afterRead address 4) with
      | error error after =>
        rw [Actions.run_bind_error hword]
        exact .failed hgain hgrants (hword ▸ hcourse)
      | ok done after =>
        rw [Actions.run_bind_ok hword, Actions.run_bind_ok (run_note _)]
        exact .set hgain hgrants (hword ▸ hcourse)
    · have hunset : level.isNaN = true ∨ (chip.requested gain level relative).isFinite = false := by
        simpa [or_iff_not_imp_left] using hset
      obtain ⟨journal, hrun⟩ := run_setVolume_of_unset hgain hunset
      rw [hrun]
      exact .kept hgain hunset

/-- Whatever is requested, the word of one gain is set at most, and it lies between silence and full
scale.  Everything else that a request does is to read. -/
theorem setVolume_within_scale (chip : Chip) (level : Binary64) (address : UInt16)
    (relative : Bool) :
    VolumeCourse chip level address relative ((setVolume level address relative).run chip) ∧
      chip.transport.Unwritten (chip.afterRead address 4).transport ∧
      ∀ later : Chip, later.transport.Unwritten (final (getLevel address) later).transport :=
  ⟨volumeCourse chip level address relative, chip.unwritten_afterRead address 4,
    fun later => unwritten_getLevel later address⟩

/-- A chip on which a gain is its own level. -/
private def plain : Chip :=
  { family := .adau14xx, transport := .memory {}, useSafeload := false, scale := ⟨id, id⟩ }

-- A level of two sets full scale.
example : ((final (setVolume ⟨0x4000000000000000⟩ 0x100 false) plain).transport.read 0x100 4).1 =
    .ok [1, 0, 0, 0] := by decide +kernel

end ChipM

end TuningBridge
