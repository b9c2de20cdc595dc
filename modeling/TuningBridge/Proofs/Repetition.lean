import Mathlib.Logic.Function.Iterate
import TuningBridge.Proofs.Drift

/-!
# Requests that are made again

A level that is set, and not shifted, asks for the same word whatever level the chip has; only a
level outside the range leaves the parameter as it is.  So on a register bank, and without safeload,
asking again sets the same word to the same register and reads the same level back, and where the
first request fails or changes nothing, so do all that follow.  Nothing is asked of the conversions
between levels and gains.
-/

namespace TuningBridge

/-- Chips that differ in nothing that a parameter depends on, as far as they are on register
banks. -/
structure Chip.Alike (chip other : Chip) : Prop where
  family : other.family = chip.family
  scale : other.scale = chip.scale
  useSafeload : other.useSafeload = chip.useSafeload
  bank : ∀ bank, chip.transport = .memory bank → ∃ left : Bank, other.transport = .memory left ∧
    left.registers = bank.registers ∧ left.failsReads = bank.failsReads

namespace Chip

variable {chip middle other : Chip} {bank : Bank} {address : UInt16} {word : UInt32}
  {gain level : Binary64}

namespace Alike

protected theorem refl (chip : Chip) : chip.Alike chip :=
  ⟨rfl, rfl, rfl, fun bank h => ⟨bank, h, rfl, rfl⟩⟩

protected theorem trans (first : chip.Alike middle) (second : middle.Alike other) :
    chip.Alike other where
  family := second.family.trans first.family
  scale := second.scale.trans first.scale
  useSafeload := second.useSafeload.trans first.useSafeload
  bank := by
    intro bank hbank
    obtain ⟨left, hleft, hregisters, hfails⟩ := first.bank bank hbank
    obtain ⟨last, hlast, hregisters', hfails'⟩ := second.bank left hleft
    exact ⟨last, hlast, hregisters'.trans hregisters, hfails'.trans hfails⟩

/-- What is noted in the journal makes no difference. -/
theorem journal (h : chip.Alike other) (journal : Array Event) :
    chip.Alike { other with journal } :=
  ⟨h.family, h.scale, h.useSafeload, h.bank⟩

/-- A read makes no difference, whether it succeeds or fails. -/
theorem afterRead (chip : Chip) (address : UInt16) (length : Nat) :
    chip.Alike (chip.afterRead address length) where
  family := rfl
  scale := rfl
  useSafeload := rfl
  bank := by
    intro bank hbank
    refine ⟨bank.record (.read address length), ?_, bank.registers_record _,
      bank.failsReads_record _⟩
    rw [Chip.afterRead, hbank, ← Bank.read_snd]
    rfl

/-- The same word is written to both chips. -/
theorem afterWrite (h : chip.Alike other) (hbank : chip.transport = .memory bank) (address : UInt16)
    (word : UInt32) :
    (chip.afterWrite (address, Bytes.ofUInt32 word)).Alike
      (other.afterWrite (address, Bytes.ofUInt32 word)) where
  family := h.family
  scale := h.scale
  useSafeload := h.useSafeload
  bank := by
    intro written hwritten
    obtain rfl := Transport.memory.inj ((transport_afterWrite hbank _).symm.trans hwritten)
    obtain ⟨left, hleft, hregisters, hfails⟩ := h.bank bank hbank
    refine ⟨_, transport_afterWrite hleft _, ?_, ?_⟩
    · rw [ChipM.registers_write_word, ChipM.registers_write_word, hregisters]
    · rw [Bank.write, Bank.write, Bank.failsReads_record, Bank.failsReads_record]
      exact hfails

/-- A register that holds a word holds it after the word is written again. -/
theorem again (h : (chip.afterWrite (address, Bytes.ofUInt32 word)).Alike other)
    (hbank : chip.transport = .memory bank) :
    other.Alike (other.afterWrite (address, Bytes.ofUInt32 word)) where
  family := rfl
  scale := rfl
  useSafeload := rfl
  bank := by
    intro left hleft
    obtain ⟨held, hheld, hregisters, -⟩ := h.bank _ (transport_afterWrite hbank _)
    obtain rfl : left = held := Transport.memory.inj (hleft.symm.trans hheld)
    rw [ChipM.registers_write_word] at hregisters
    refine ⟨_, transport_afterWrite hleft _, ?_, Bank.failsReads_record ..⟩
    rw [ChipM.registers_write_word, hregisters, RegisterMap.put_put]

/-- The gain at an address is the same. -/
theorem gain?_eq (h : chip.Alike other) (hbank : chip.transport = .memory bank) (address : UInt16) :
    other.gain? address = chip.gain? address := by
  obtain ⟨left, hleft, hregisters, hfails⟩ := h.bank bank hbank
  have hread : (left.read address 4).1 = (bank.read address 4).1 := by
    rw [Bank.read, Bank.read, hregisters, hfails]
    split <;> rfl
  rw [gain?, gain?, h.family, hleft, hbank, Transport.read, Transport.read, hread]

end Alike

/-- A word that is written to a register of a bank is the gain that is read there. -/
theorem gain?_afterWrite (hbank : chip.transport = .memory bank) (hreads : bank.failsReads = false)
    (address : UInt16) (word : UInt32) :
    (chip.afterWrite (address, Bytes.ofUInt32 word)).gain? address =
      Parameter.decode chip.family.fixedPoint word := by
  rw [gain?, ChipM.read_afterWrite hbank hreads, Actions.ok_bind, Bytes.toUInt32_ofUInt32]
  rfl

/-- A gain that is read is read from a bank whose reads work. -/
theorem failsReads_of_gain? (hbank : chip.transport = .memory bank)
    (h : chip.gain? address = .ok gain) : bank.failsReads = false := by
  obtain ⟨data, hread, -⟩ := Actions.exists_of_bind_eq_ok h
  rw [hbank] at hread
  exact (Bank.read_eq_ok_iff.mp hread).1

/-- A level that is set, and not shifted, stands for the same gain whatever the chip has. -/
theorem requested_absolute (chip : Chip) (gain level : Binary64) :
    chip.requested gain level false = chip.scale.toLinear level := by
  rw [requested, if_neg Bool.false_ne_true]

/-- A level that is set is granted by the same word on all chips of a family with the same
conversions. -/
theorem Grants.congr (h : chip.Grants gain level false word) (hfamily : other.family = chip.family)
    (hscale : other.scale = chip.scale) (later : Binary64) :
    other.Grants later level false word := by
  have hrequested : other.requested later level false = chip.requested gain level false := by
    rw [requested_absolute, requested_absolute, hscale]
  refine ⟨h.isNumber, ?_, ?_, ?_⟩
  · rw [hrequested]
    exact h.isFinite
  · rw [hrequested, hfamily]
    exact h.encoded
  · rw [hfamily]
    exact h.isGain

end Chip

/-- A word between silence and full scale is decoded. -/
theorem FixedPoint.IsGain.exists_decode {format : FixedPoint} {word : UInt32}
    (h : format.IsGain word) : ∃ gain, Parameter.decode format word = .ok gain := by
  have hlt : (format.signExtend word).natAbs < format.bound := by
    rw [h.signed, Int.natAbs_natCast]
    exact Nat.lt_of_le_of_lt h.le_unity format.unity_lt_bound
  obtain ⟨gain, hgain, -⟩ := FixedPoint.exists_decode?_of_lt hlt
  exact ⟨gain, Parameter.decode_eq_ok_iff.mpr hgain⟩

namespace ChipM

variable {chip : Chip} {bank : Bank} {address : UInt16} {word : UInt32} {gain level : Binary64}
  {error : Error}

/-- What an action returns, whatever it does to the chip. -/
def outcome {α : Type} (action : ChipM α) (chip : Chip) : Except Error α :=
  match action.run chip with
  | .ok value _ => .ok value
  | .error error _ => .error error

theorem outcome_of_ok {α : Type} {action : ChipM α} {after : Chip} {value : α}
    (h : action.run chip = .ok value after) : outcome action chip = .ok value := by
  rw [outcome, h]

theorem outcome_of_error {α : Type} {action : ChipM α} {after : Chip}
    (h : action.run chip = .error error after) : outcome action chip = .error error := by
  rw [outcome, h]

/-- A request fails where the gain that is set cannot be read, and changes nothing. -/
theorem setVolume_of_unread (hgain : chip.gain? address = .error error) (level : Binary64) :
    outcome (setVolume level address false) chip = .error error ∧
      chip.Alike (final (setVolume level address false) chip) := by
  have hrun : (setVolume level address false).run chip = .error error (chip.afterRead address 4) :=
    Actions.run_bind_error (run_getLevel_error hgain) _
  rw [outcome_of_error hrun, final_of_error hrun]
  exact ⟨rfl, .afterRead chip address 4⟩

/-- A request that stands for no gain returns the level that is set, and changes nothing. -/
theorem setVolume_of_unset (hgain : chip.gain? address = .ok gain)
    (hunset : level.isNaN = true ∨ (chip.requested gain level false).isFinite = false) :
    outcome (setVolume level address false) chip = .ok (chip.scale.ofLinear gain) ∧
      chip.Alike (final (setVolume level address false) chip) := by
  obtain ⟨journal, hrun⟩ := run_setVolume_of_unset hgain hunset
  rw [outcome_of_ok hrun, final_of_ok hrun]
  exact ⟨rfl, (Chip.Alike.afterRead chip address 4).journal journal⟩

/-- A request that is granted writes its word, and returns the level of that word. -/
theorem setVolume_of_grants (hbank : chip.transport = .memory bank)
    (huse : chip.useSafeload = false) (hgain : chip.gain? address = .ok gain)
    (hgrants : chip.Grants gain level false word) {got : Binary64}
    (hgot : Parameter.decode chip.family.fixedPoint word = .ok got) :
    outcome (setVolume level address false) chip = .ok (chip.scale.ofLinear got) ∧
      (chip.afterWrite (address, Bytes.ofUInt32 word)).Alike
        (final (setVolume level address false) chip) := by
  have hdirect : (chip.afterRead address 4).useSafeload = false := huse
  have hset := run_setWord_of_direct hdirect address word
  have hrun := run_setVolume_of_grants hgain hgrants
  rw [Actions.run_bind_ok hset, Actions.run_bind_ok (run_note _)] at hrun
  -- the register holds the word when the level is read back
  have halike := ((Chip.Alike.afterRead chip address 4).afterWrite hbank address word).journal
    (((chip.afterRead address 4).afterWrite (address, Bytes.ofUInt32 word)).journal ++
      [Event.levelSet (chip.scale.ofLinear ((chip.requested gain level false).clamp .zero .one))])
  have hback := halike.gain?_eq (Chip.transport_afterWrite hbank _) address
  rw [Chip.gain?_afterWrite hbank (Chip.failsReads_of_gain? hbank hgain), hgot] at hback
  rw [run_getLevel_ok hback] at hrun
  rw [outcome_of_ok hrun, final_of_ok hrun]
  exact ⟨rfl, halike.trans (.afterRead _ address 4)⟩

/-- What comes of a request on a bank that is made a second time: it returns what the first one
returned, and leaves the chip alike. -/
structure Repeats (request : ChipM Binary64) (chip : Chip) : Prop where
  bank : ∃ left, (final request chip).transport = .memory left
  direct : (final request chip).useSafeload = false
  same : outcome request (final request chip) = outcome request chip
  alike : (final request chip).Alike (final request (final request chip))

/-- On a bank, a request for a level is answered alike when it is made again. -/
theorem repeats_setVolume (hbank : chip.transport = .memory bank) (huse : chip.useSafeload = false)
    (level : Binary64) (address : UInt16) : Repeats (setVolume level address false) chip := by
  cases hgain : chip.gain? address with
  | error error =>
    obtain ⟨hfirst, halike⟩ := setVolume_of_unread hgain level
    obtain ⟨left, hleft, -⟩ := halike.bank bank hbank
    have hlater := (halike.gain?_eq hbank address).trans hgain
    obtain ⟨hsecond, hstays⟩ := setVolume_of_unread hlater level
    exact ⟨⟨left, hleft⟩, halike.useSafeload.trans huse, hsecond.trans hfirst.symm, hstays⟩
  | ok gain =>
    by_cases hset : level.isNaN = false ∧ (chip.requested gain level false).isFinite = true
    · obtain ⟨word, hgrants⟩ := exists_grants hset.1 hset.2
      obtain ⟨got, hgot⟩ := hgrants.isGain.exists_decode
      obtain ⟨hfirst, halike⟩ := setVolume_of_grants hbank huse hgain hgrants hgot
      obtain ⟨left, hleft, -⟩ := halike.bank _ (Chip.transport_afterWrite hbank _)
      have hfamily : (final (setVolume level address false) chip).family = chip.family :=
        halike.family
      -- the second request finds the word that the first one wrote, and writes it again
      have hlater := halike.gain?_eq (Chip.transport_afterWrite hbank _) address
      rw [Chip.gain?_afterWrite hbank (Chip.failsReads_of_gain? hbank hgain), hgot] at hlater
      obtain ⟨hsecond, hstays⟩ := setVolume_of_grants hleft (halike.useSafeload.trans huse) hlater
        (hgrants.congr hfamily halike.scale got) (hfamily ▸ hgot)
      refine ⟨⟨left, hleft⟩, halike.useSafeload.trans huse, ?_, (halike.again hbank).trans hstays⟩
      rw [hsecond, hfirst, halike.scale]
      rfl
    · have hunset : level.isNaN = true ∨ (chip.requested gain level false).isFinite = false := by
        simpa [or_iff_not_imp_left] using hset
      obtain ⟨hfirst, halike⟩ := setVolume_of_unset hgain hunset
      obtain ⟨left, hleft, -⟩ := halike.bank bank hbank
      have hlater := (halike.gain?_eq hbank address).trans hgain
      rw [Chip.requested_absolute, ← halike.scale, ← Chip.requested_absolute] at hunset
      obtain ⟨hsecond, hstays⟩ := setVolume_of_unset hlater hunset
      refine ⟨⟨left, hleft⟩, halike.useSafeload.trans huse, ?_, hstays⟩
      rw [hsecond, hfirst, halike.scale]

/-- However often a level is set again, every request is answered as the first one, and leaves the
chip as that left it. -/
private theorem repeats_iterate (hbank : chip.transport = .memory bank)
    (huse : chip.useSafeload = false) (level : Binary64) (address : UInt16) (calls : Nat) :
    Repeats (setVolume level address false) ((final (setVolume level address false))^[calls] chip) ∧
      outcome (setVolume level address false)
        ((final (setVolume level address false))^[calls] chip) =
        outcome (setVolume level address false) chip ∧
      (final (setVolume level address false) chip).Alike
        ((final (setVolume level address false))^[calls + 1] chip) := by
  induction calls with
  | zero => exact ⟨repeats_setVolume hbank huse level address, rfl, .refl _⟩
  | succ calls ih =>
    obtain ⟨⟨⟨left, hleft⟩, hdirect, hsame, hstays⟩, hreturned, halike⟩ := ih
    rw [← Function.iterate_succ_apply' (final (setVolume level address false))]
      at hleft hdirect hsame hstays
    refine ⟨repeats_setVolume hleft hdirect level address, hsame.trans hreturned, ?_⟩
    rw [Function.iterate_succ_apply']
    exact halike.trans hstays

/-- On a register bank and without safeload, a level that is set again and again is answered every
time as the first time, by the same level or the same error, and no register changes any more after
the first time. -/
theorem setVolume_settles (hbank : chip.transport = .memory bank) (huse : chip.useSafeload = false)
    (level : Binary64) (address : UInt16) (calls : Nat) :
    let request := setVolume level address false
    outcome request ((final request)^[calls] chip) = outcome request chip ∧
      ∃ first later : Bank, (final request chip).transport = .memory first ∧
        ((final request)^[calls + 1] chip).transport = .memory later ∧
        later.registers = first.registers := by
  intro request
  obtain ⟨-, hsame, halike⟩ := repeats_iterate hbank huse level address calls
  obtain ⟨first, hfirst⟩ := (repeats_setVolume hbank huse level address).bank
  obtain ⟨later, hlater, hregisters, -⟩ := halike.bank first hfirst
  exact ⟨hsame, first, later, hfirst, hlater, hregisters⟩

/-- A gain of minus one is replaced by one third, which is cut to a step of 5.23 when it is set for
the first time. -/
theorem setVolume_settles_third :
    let bank : Bank := { registers := .put .empty 0x0060 [0x0F, 0x80, 0, 0] }
    let chip : Chip :=
      { family := .adau1x0x, transport := .memory bank, useSafeload := false, scale := ⟨id, id⟩ }
    let request := setVolume ⟨0x3FD5555555555555⟩ 0x0060 false
    outcome request chip = .ok ⟨0x3FD5555500000000⟩ ∧
    outcome request (final request chip) = outcome request chip ∧
      ∃ first later : Bank, (final request chip).transport = .memory first ∧
        (final request (final request chip)).transport = .memory later ∧
        later.registers = first.registers := by
  intro bank chip request
  have hbank : chip.transport = .memory bank := rfl
  obtain ⟨hsame, hregisters⟩ := setVolume_settles hbank rfl ⟨0x3FD5555555555555⟩ 0x0060 1
  exact ⟨by decide +kernel, hsame, hregisters⟩

end ChipM

end TuningBridge
