import TuningBridge.Proofs.Gain
import TuningBridge.Proofs.Recall
import TuningBridge.Proofs.Truncation

/-!
# Parameters that are set and read back

Without safeload a parameter is one word that is written to its register.  On a register bank the
word is read back as it is, so an integer comes back unchanged, and a float as the number that it
was cut to.  A float that does not fit the format is refused before anything is written.
-/

namespace TuningBridge

namespace Parameter

variable {format : FixedPoint} {value : Binary64} {number : ℚ} {word : UInt32} {count : ℤ}

/-- A double that denotes a number below the limit of a format. -/
def InRange (format : FixedPoint) (value : Binary64) : Prop :=
  ∃ number, value.rational? = some number ∧ |number| < format.limit

/-- A float that a format holds is encoded as its steps. -/
theorem encode_of_some (h : format.encode? value = some count) :
    encode format value = .ok (FixedPoint.word count) := by
  rw [encode, steps, h]
  rfl

/-- A float that a format does not hold overflows it. -/
theorem encode_of_none (h : format.encode? value = none) :
    encode format value = .error (.fixedPointOverflow value format) := by
  rw [encode, steps, h]
  rfl

/-- A double in range is encoded as the word of the steps that its number is cut to. -/
theorem encode_eq_ok_iff : encode format value = .ok word ↔
    ∃ number, value.rational? = some number ∧ |number| < format.limit ∧
      FixedPoint.word (truncate (number * 2 ^ format.fractionalBits)) = word := by
  constructor
  · intro h
    cases hencode : format.encode? value with
    | none =>
      rw [encode_of_none hencode] at h
      cases h
    | some count =>
      rw [encode_of_some hencode] at h
      cases h
      obtain ⟨number, hvalue, hlt, rfl⟩ := FixedPoint.encode?_eq_some_iff.mp hencode
      exact ⟨number, hvalue, hlt, rfl⟩
  · rintro ⟨number, hvalue, hlt, rfl⟩
    exact encode_of_some (FixedPoint.encode?_eq_some_iff.mpr ⟨number, hvalue, hlt, rfl⟩)

/-- A float out of the range of a format overflows it. -/
theorem encode_of_not_inRange (h : ¬InRange format value) :
    encode format value = .error (.fixedPointOverflow value format) := by
  cases hencode : format.encode? value with
  | none => exact encode_of_none hencode
  | some count =>
    obtain ⟨number, hvalue, hlt, -⟩ := FixedPoint.encode?_eq_some_iff.mp hencode
    exact absurd ⟨number, hvalue, hlt⟩ h

/-- The word of a number below the limit is decoded as what the number is cut to. -/
theorem exists_decode_of_lt (hlt : |number| < format.limit) : ∃ got : Binary64,
    decode format (FixedPoint.word (truncate (number * 2 ^ format.fractionalBits))) = .ok got ∧
      got.rational? = some (format.cut number) := by
  have hsteps := FixedPoint.natAbs_truncate_lt hlt
  obtain ⟨got, hgot, hrational⟩ := FixedPoint.exists_decode?_of_lt hsteps
  refine ⟨got, ?_, hrational⟩
  rw [decode, FixedPoint.signExtend_word hsteps, ofSteps, hgot]

end Parameter

namespace ChipM

variable {chip after : Chip} {bank : Bank} {address : UInt16} {word : UInt32} {value : Parameter}
  {error : Error} {data : Bytes} {number : Binary64}

/-- Without safeload a parameter that is encoded is written at once. -/
theorem run_setParameter_ok (huse : chip.useSafeload = false)
    (hword : value.word chip.family.fixedPoint = .ok word) :
    (setParameter address value).run chip =
      .ok () (chip.afterWrite (address, Bytes.ofUInt32 word)) := by
  rw [setParameter, Actions.run_bind_ok (run_fixedPoint chip), hword,
    Actions.run_bind_ok Actions.run_ofExcept_ok]
  exact run_setWord_of_direct huse address word

/-- A parameter that is not encoded leaves the chip as it was. -/
theorem run_setParameter_error (hword : value.word chip.family.fixedPoint = .error error) :
    (setParameter address value).run chip = .error error chip := by
  rw [setParameter, Actions.run_bind_ok (run_fixedPoint chip), hword]
  exact Actions.run_bind_error Actions.run_ofExcept_error _

/-- Without safeload, a parameter that was set is a word that was written. -/
theorem exists_word_of_set (huse : chip.useSafeload = false)
    (hset : (setParameter address value).run chip = .ok () after) :
    ∃ word, value.word chip.family.fixedPoint = .ok word ∧
      after = chip.afterWrite (address, Bytes.ofUInt32 word) := by
  cases hword : value.word chip.family.fixedPoint with
  | error error =>
    rw [run_setParameter_error hword] at hset
    cases hset
  | ok word =>
    rw [run_setParameter_ok huse hword] at hset
    cases hset
    exact ⟨word, rfl, rfl⟩

/-- An integer is read as the number that its register writes. -/
theorem run_getParameter_int (hread : (chip.transport.read address 4).1 = .ok data) :
    (getParameter address .int).run chip =
      .ok (.int (UInt32.ofNat data.toNat)) (chip.afterRead address 4) := by
  rw [getParameter, Actions.run_bind_ok (run_readUInt32_ok hread)]
  rfl

theorem run_getParameter_float (hread : (chip.transport.read address 4).1 = .ok data)
    (hnumber : Parameter.decode chip.family.fixedPoint (UInt32.ofNat data.toNat) = .ok number) :
    (getParameter address .float).run chip = .ok (.float number) (chip.afterRead address 4) := by
  rw [getParameter, Actions.run_bind_ok (run_readUInt32_ok hread)]
  dsimp only
  rw [Actions.run_bind_ok (run_fixedPoint _), Chip.family_afterRead, hnumber,
    Actions.run_bind_ok Actions.run_ofExcept_ok]
  rfl

/-- A word that is written to a register of a bank is read back. -/
theorem read_afterWrite (hbank : chip.transport = .memory bank) (hreads : bank.failsReads = false)
    (address : UInt16) (word : UInt32) :
    ((chip.afterWrite (address, Bytes.ofUInt32 word)).transport.read address 4).1 =
      .ok (Bytes.ofUInt32 word) := by
  have hlength : (Bytes.ofUInt32 word).length = 4 * 1 := Bytes.length_ofUInt32 word
  have hzero : address + UInt16.ofNat 0 = address := UInt16.add_zero address
  have hread := Bank.read_write_of_whole hreads hlength (by decide) (Nat.le_refl (0 + 1)) address
  rw [hzero, Nat.mul_zero, List.drop_zero, List.take_of_length_le hlength.le] at hread
  rwa [Chip.transport_afterWrite hbank]

/-- A word is written to one register of a bank. -/
theorem registers_write_word (bank : Bank) (address : UInt16) (word : UInt32) :
    (bank.write address (Bytes.ofUInt32 word)).registers =
      bank.registers.put address (Bytes.ofUInt32 word) := by
  have hblock : RegisterMap.isBlock (Bytes.ofUInt32 word).length = false := by
    rw [Bytes.length_ofUInt32]
    rfl
  rw [Bank.registers_write, RegisterMap.spread_of_not_block hblock]
  rfl

/-- A word that is written to a register of a bank changes no other register. -/
theorem exists_bank_afterWrite (hbank : chip.transport = .memory bank) (address : UInt16)
    (word : UInt32) :
    ∃ left : Bank, (chip.afterWrite (address, Bytes.ofUInt32 word)).transport = .memory left ∧
      ∀ register, register ≠ address →
        left.registers.get? register = bank.registers.get? register := by
  refine ⟨bank.write address (Bytes.ofUInt32 word), Chip.transport_afterWrite hbank _, ?_⟩
  intro register hne
  rw [registers_write_word, RegisterMap.get?_put, if_neg hne.symm]

/-- What comes of a parameter that is set at an address of a register bank, and of getting it
again. -/
structure KeepsParameters (chip : Chip) (bank : Bank) (address : UInt16) : Prop where
  int : ∀ value : UInt32, ∃ after later,
    (setParameter address (.int value)).run chip = .ok () after ∧
      (getParameter address .int).run after = .ok (.int value) later
  /-- A float is set just if it is in the range of the format. -/
  float_iff : ∀ value : Binary64,
    (∃ after, (setParameter address (.float value)).run chip = .ok () after) ↔
    Parameter.InRange chip.family.fixedPoint value
  /-- A float that was set is the number that it was cut to. -/
  float : ∀ (value : Binary64) (number : ℚ) (after : Chip), value.rational? = some number →
    (setParameter address (.float value)).run chip = .ok () after →
      ∃ got kept later, (getParameter address .float).run after = .ok (.float got) later ∧
        got.rational? = some kept ∧ chip.family.fixedPoint.Cuts number kept
  /-- A float that is refused leaves the chip as it is. -/
  overflow : ∀ value : Binary64, ¬Parameter.InRange chip.family.fixedPoint value →
    (setParameter address (.float value)).run chip =
      .error (.fixedPointOverflow value chip.family.fixedPoint) chip
  others : ∀ (value : Parameter) (after : Chip),
    (setParameter address value).run chip = .ok () after →
    ∃ left : Bank, after.transport = .memory left ∧
      ∀ register, register ≠ address → left.registers.get? register = bank.registers.get? register

/-- Without safeload, a register bank whose reads work keeps the parameters that are set. -/
theorem keepsParameters_of_reads (hbank : chip.transport = .memory bank)
    (hreads : bank.failsReads = false) (huse : chip.useSafeload = false) (address : UInt16) :
    KeepsParameters chip bank address where
  int := by
    intro value
    have hget := run_getParameter_int (read_afterWrite hbank hreads address value)
    rw [Bytes.toUInt32_ofUInt32] at hget
    exact ⟨_, _, run_setParameter_ok huse rfl, hget⟩
  float_iff := by
    intro value
    constructor
    · rintro ⟨after, hset⟩
      obtain ⟨word, hword, -⟩ := exists_word_of_set huse hset
      obtain ⟨number, hnumber, hlt, -⟩ := Parameter.encode_eq_ok_iff.mp hword
      exact ⟨number, hnumber, hlt⟩
    · rintro ⟨number, hnumber, hlt⟩
      exact ⟨_, run_setParameter_ok huse
        (Parameter.encode_eq_ok_iff.mpr ⟨number, hnumber, hlt, rfl⟩)⟩
  float := by
    intro value number after hnumber hset
    obtain ⟨word, hword, rfl⟩ := exists_word_of_set huse hset
    obtain ⟨encoded, hencoded, hlt, rfl⟩ := Parameter.encode_eq_ok_iff.mp hword
    obtain rfl : number = encoded := Option.some.inj (hnumber.symm.trans hencoded)
    obtain ⟨got, hgot, hkept⟩ := Parameter.exists_decode_of_lt hlt
    rw [← Bytes.toUInt32_ofUInt32 (FixedPoint.word _)] at hgot
    have hget := run_getParameter_float (read_afterWrite hbank hreads address _) hgot
    exact ⟨got, _, _, hget, hkept, FixedPoint.cuts_cut _ number⟩
  overflow := fun value hout => run_setParameter_error (Parameter.encode_of_not_inRange hout)
  others := by
    intro value after hset
    obtain ⟨word, -, rfl⟩ := exists_word_of_set huse hset
    exact exists_bank_afterWrite hbank address word

/-- A bank that holds something else and does not record, behind a chip with 5.23 parameters.  The
last double above minus sixteen can be set, and minus sixteen cannot. -/
theorem keepsParameters_nearLimit :
    let bank : Bank := { registers := .put .empty 0x0210 [0xFF], recording := false }
    let chip : Chip := { family := .adau1x0x, transport := .memory bank, useSafeload := false }
    KeepsParameters chip bank 0x0210 ∧
    Parameter.InRange chip.family.fixedPoint ⟨0xC02FFFFFFFFFFFFF⟩ ∧
      ¬Parameter.InRange chip.family.fixedPoint ⟨0xC030000000000000⟩ := by
  intro bank chip
  refine ⟨keepsParameters_of_reads rfl rfl rfl 0x0210, ⟨-16 + 1 / 2 ^ 49, ?_, ?_⟩, ?_⟩
  · decide +kernel
  · decide +kernel
  · rintro ⟨number, hnumber, hlt⟩
    have hsixteen : (⟨0xC030000000000000⟩ : Binary64).rational? = some (-16) := by decide +kernel
    obtain rfl : -16 = number := Option.some.inj (hsixteen.symm.trans hnumber)
    exact absurd hlt (by decide +kernel)

end ChipM

end TuningBridge
