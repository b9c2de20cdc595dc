import TuningBridge.Proofs.Parameters

/-!
# Words read as numbers and written back

Of a register word only the low bits of the format count, with their sign.  Every word but the one
of the most negative steps is decoded exactly, so the number is encoded as the same steps again, and
two words are decoded alike just if they count alike.  What is written back is the canonical word of
these bits: the word itself in 8.24, and the 28 low bits with their sign above them in 5.23.
Reading and writing back again changes nothing any more.
-/

namespace TuningBridge

theorem truncate_intCast (value : ℤ) : truncate (value : ℚ) = value := by
  rw [truncate, Int.ceil_intCast, Int.floor_intCast, ite_self]

namespace FixedPoint

variable {format : FixedPoint} {word other : UInt32} {steps count : ℤ} {value value' : Binary64}

/-- The number of bits of a word that count, the sign included. -/
def width (format : FixedPoint) : Nat := format.magnitudeBits + 1

/-- The bits of a word that count, with the sign in all bits above them. -/
def canonical (format : FixedPoint) (word : UInt32) : UInt32 :=
  ⟨(word.toBitVec.setWidth format.width).signExtend 32⟩

theorem width_le (format : FixedPoint) : format.width ≤ 32 := by
  cases format <;> decide

theorem two_pow_width (format : FixedPoint) : 2 ^ format.width = 2 * format.bound := by
  cases format <;> rfl

/-- The steps of a word are its low bits in two's complement. -/
theorem signExtend_eq_toInt (format : FixedPoint) (word : UInt32) :
    format.signExtend word = (word.toBitVec.setWidth format.width).toInt := by
  rw [signExtend, BitVec.toInt_eq_toNat_cond, BitVec.toNat_setWidth, two_pow_width,
    UInt32.toNat_toBitVec]
  simp only [Nat.mul_lt_mul_left (by decide : 0 < 2)]

/-- The steps of a word are written as its canonical word. -/
theorem word_signExtend (format : FixedPoint) (word : UInt32) :
    FixedPoint.word (format.signExtend word) = format.canonical word := by
  rw [signExtend_eq_toInt, canonical, BitVec.signExtend]
  apply UInt32.toNat_inj.mp
  rw [FixedPoint.word, UInt32.toNat_ofNat', UInt32.toNat_ofBitVec, BitVec.toNat_ofInt]
  omega

/-- The bits that count are the same in the canonical word. -/
theorem signExtend_canonical (format : FixedPoint) (word : UInt32) :
    format.signExtend (format.canonical word) = format.signExtend word := by
  rw [signExtend_eq_toInt, signExtend_eq_toInt, canonical]
  congr 1
  apply BitVec.eq_of_getLsbD_eq
  intro index hindex
  have hwidth : index < 32 := hindex.trans_le format.width_le
  simp only [BitVec.getLsbD_setWidth, BitVec.getLsbD_signExtend, hindex, hwidth, decide_true,
    Bool.true_and, if_true]

theorem canonical_canonical (format : FixedPoint) (word : UInt32) :
    format.canonical (format.canonical word) = format.canonical word := by
  rw [← word_signExtend, signExtend_canonical, word_signExtend]

/-- All bits of a word count in 8.24. -/
theorem canonical_q8_24 (word : UInt32) : canonical .q8_24 word = word := by
  apply UInt32.toBitVec_inj.mp
  exact (BitVec.signExtend_eq _).trans (BitVec.setWidth_eq _)

/-- The bits above the ones that count do not matter. -/
theorem canonical_congr (h : word.toNat % 2 ^ format.width = other.toNat % 2 ^ format.width) :
    format.canonical word = format.canonical other := by
  have hlow : word.toBitVec.setWidth format.width = other.toBitVec.setWidth format.width := by
    apply BitVec.eq_of_toNat_eq
    rwa [BitVec.toNat_setWidth, BitVec.toNat_setWidth]
  rw [canonical, canonical, hlow]

/-- The steps of a word are below the bound, but for one value. -/
theorem natAbs_signExtend_lt_iff (format : FixedPoint) (word : UInt32) :
    (format.signExtend word).natAbs < format.bound ↔
      format.signExtend word ≠ -2 ^ format.magnitudeBits := by
  have hpower : (2 : ℤ) ^ format.magnitudeBits = format.bound := by
    rw [bound, Nat.one_shiftLeft, Nat.cast_pow, Nat.cast_ofNat]
  have hlow : word.toNat % (2 * format.bound) < 2 * format.bound :=
    Nat.mod_lt _ (format.two_pow_width ▸ Nat.two_pow_pos _)
  rw [hpower, signExtend]
  split <;> omega

theorem natAbs_lt_of_decode? (h : format.decode? steps = some value) :
    steps.natAbs < format.bound := by
  rw [decode?] at h
  split at h
  · assumption
  · cases h

/-- What is decoded denotes the number of the steps. -/
theorem rational?_of_decode? (h : format.decode? steps = some value) :
    value.rational? = some ((steps : ℚ) / 2 ^ format.fractionalBits) := by
  obtain ⟨decoded, hdecoded, hrational⟩ := exists_decode?_of_lt (natAbs_lt_of_decode? h)
  rw [Option.some.inj (h.symm.trans hdecoded), hrational]

/-- The number of steps is below the limit if the steps are below the bound. -/
theorem abs_div_lt_limit (h : steps.natAbs < format.bound) :
    |(steps : ℚ) / 2 ^ format.fractionalBits| < format.limit := by
  have hscale : (0 : ℚ) < 2 ^ format.fractionalBits := by positivity
  rw [abs_div, abs_of_pos hscale, div_lt_iff₀ hscale, ← natCast_bound, ← Int.cast_abs,
    Int.abs_eq_natAbs]
  exact_mod_cast h

/-- What is decoded is encoded as the same steps. -/
theorem encode?_of_decode? (h : format.decode? steps = some value) :
    format.encode? value = some steps := by
  have hlimit := abs_div_lt_limit (natAbs_lt_of_decode? h)
  have hscale : (2 : ℚ) ^ format.fractionalBits ≠ 0 := by positivity
  rw [encode?_of_rational? (rational?_of_decode? h), if_pos hlimit, div_mul_cancel₀ _ hscale,
    truncate_intCast]

end FixedPoint

namespace Parameter

variable {format : FixedPoint} {word other : UInt32} {value value' : Binary64}

theorem decode_eq_ok_iff :
    decode format word = .ok value ↔ format.decode? (format.signExtend word) = some value := by
  rw [decode, ofSteps]
  cases format.decode? (format.signExtend word) with
  | none => simp
  | some decoded => rw [Except.ok.injEq, Option.some.injEq]

/-- A word is decoded unless its steps are the most negative ones; these are named by the error. -/
theorem decode_cases (format : FixedPoint) (word : UInt32) :
    (format.signExtend word ≠ -2 ^ format.magnitudeBits ∧ ∃ value, decode format word = .ok value) ∨
    (format.signExtend word = -2 ^ format.magnitudeBits ∧ decode format word =
      .error (.fixedPointOverflow (Binary64.ofScaled (-2 ^ format.magnitudeBits) 0) format)) := by
  have hbound := format.natAbs_signExtend_lt_iff word
  by_cases hsteps : format.signExtend word = -2 ^ format.magnitudeBits
  · refine .inr ⟨hsteps, ?_⟩
    rw [decode, ofSteps, FixedPoint.decode?, if_neg (hbound.not.mpr (not_not.mpr hsteps)), hsteps]
  · obtain ⟨value, hvalue, _⟩ := FixedPoint.exists_decode?_of_lt (hbound.mpr hsteps)
    exact .inl ⟨hsteps, value, decode_eq_ok_iff.mpr hvalue⟩

/-- What is decoded is encoded as the canonical word. -/
theorem encode_of_decode (h : decode format word = .ok value) :
    encode format value = .ok (format.canonical word) := by
  rw [encode_of_some (FixedPoint.encode?_of_decode? (decode_eq_ok_iff.mp h)),
    FixedPoint.word_signExtend]

theorem decode_canonical (format : FixedPoint) (word : UInt32) :
    decode format (format.canonical word) = decode format word := by
  rw [decode, FixedPoint.signExtend_canonical, decode]

/-- Words are decoded alike just if their steps are the same. -/
theorem decode_inj (h : decode format word = .ok value) (h' : decode format other = .ok value') :
    value = value' ↔ format.signExtend word = format.signExtend other := by
  have hsteps := FixedPoint.encode?_of_decode? (decode_eq_ok_iff.mp h)
  have hsteps' := FixedPoint.encode?_of_decode? (decode_eq_ok_iff.mp h')
  constructor
  · rintro rfl
    exact Option.some.inj (hsteps.symm.trans hsteps')
  · intro heq
    rw [decode_eq_ok_iff] at h h'
    exact Option.some.inj (h.symm.trans (heq ▸ h'))

/-- Words are decoded as the same number just if their steps are the same. -/
theorem rational?_decode_inj (h : decode format word = .ok value)
    (h' : decode format other = .ok value') :
    value.rational? = value'.rational? ↔ format.signExtend word = format.signExtend other := by
  have hscale : (2 : ℚ) ^ format.fractionalBits ≠ 0 := by positivity
  rw [FixedPoint.rational?_of_decode? (decode_eq_ok_iff.mp h),
    FixedPoint.rational?_of_decode? (decode_eq_ok_iff.mp h'), Option.some.injEq,
    div_left_inj' hscale, Int.cast_inj]

end Parameter

/-- A word that is put into a register is fetched from it. -/
theorem RegisterMap.fetch_put_word (map : RegisterMap) (address : UInt16) (word : UInt32) :
    (map.put address (Bytes.ofUInt32 word)).fetch address 4 = Bytes.ofUInt32 word := by
  rw [fetch, get?_put, if_pos rfl, Option.getD_some]
  exact Bytes.fit_eq_self_iff.mpr (Bytes.length_ofUInt32 word)

/-- A chip with parameters of a format, without safeload, on a bank of registers that can be
read. -/
structure Chip.OnBank (chip : Chip) (format : FixedPoint) (registers : RegisterMap) : Prop where
  format : chip.family.fixedPoint = format
  direct : chip.useSafeload = false
  bank : ∃ bank, chip.transport = .memory bank ∧ bank.failsReads = false ∧
    bank.registers = registers

namespace ChipM

variable {chip : Chip} {format : FixedPoint} {registers : RegisterMap} {address : UInt16}
  {word : UInt32} {number : Binary64}

/-- Read a parameter as a float and write it back. -/
def writeBack (address : UInt16) : ChipM Parameter := do
  let value ← getParameter address .float
  setParameter address value
  pure value

/-- Read a parameter and write it back so many times; the values that were read. -/
def writeBacks (address : UInt16) : (rounds : Nat) → ChipM (List Parameter)
  | 0 => pure []
  | rounds + 1 => do
    let value ← writeBack address
    let values ← writeBacks address rounds
    pure (value :: values)

/-- Setting the number of a word is setting the canonical word, with or without safeload. -/
theorem run_setParameter_of_decode (h : Parameter.decode chip.family.fixedPoint word = .ok number)
    (address : UInt16) : (setParameter address (.float number)).run chip =
      (setWord address (chip.family.fixedPoint.canonical word)).run chip := by
  have hencode : (Parameter.float number).word chip.family.fixedPoint =
      .ok (chip.family.fixedPoint.canonical word) := Parameter.encode_of_decode h
  rw [setParameter, Actions.run_bind_ok (run_fixedPoint chip), hencode,
    Actions.run_bind_ok Actions.run_ofExcept_ok]

/-- A round reads the number of the word, and puts the canonical word into the register. -/
theorem exists_writeBack (h : chip.OnBank format registers)
    (hword : registers.fetch address 4 = Bytes.ofUInt32 word)
    (hnumber : Parameter.decode format word = .ok number) :
    ∃ after, (writeBack address).run chip = .ok (.float number) after ∧
      after.OnBank format (registers.put address (Bytes.ofUInt32 (format.canonical word))) := by
  obtain ⟨rfl, huse, bank, hbank, hreads, rfl⟩ := h
  have hread : (chip.transport.read address 4).1 = .ok (Bytes.ofUInt32 word) := by
    rw [hbank]
    exact Bank.read_eq_ok_iff.mpr
      ⟨hreads, (RegisterMap.load_of_not_block (.inl (Nat.le_refl 4)) ..).trans hword⟩
  have hget : (getParameter address .float).run chip =
      .ok (.float number) (chip.afterRead address 4) := by
    refine run_getParameter_float hread ?_
    rwa [Bytes.toUInt32_ofUInt32]
  have huse' : (chip.afterRead address 4).useSafeload = false := huse
  have hdecode : Parameter.decode (chip.afterRead address 4).family.fixedPoint word = .ok number :=
    hnumber
  have hset := run_setParameter_of_decode hdecode address
  rw [run_setWord_of_direct huse', Chip.family_afterRead] at hset
  refine ⟨_, (Actions.run_bind_ok hget _).trans (Actions.run_bind_ok hset _), rfl, huse,
    (bank.read address 4).2.write address (Bytes.ofUInt32 (chip.family.fixedPoint.canonical word)),
    ?_, ?_, ?_⟩
  · rw [Chip.afterWrite, Chip.afterRead, hbank]
    rfl
  · rw [Bank.read_snd]
    exact (Bank.failsReads_record ..).trans ((Bank.failsReads_record ..).trans hreads)
  · rw [registers_write_word, Bank.read_snd, Bank.registers_record]

/-- However often a parameter is read and written back, the number that is read stays the same. -/
theorem exists_writeBacks (h : chip.OnBank format registers)
    (hword : registers.fetch address 4 = Bytes.ofUInt32 word)
    (hnumber : Parameter.decode format word = .ok number) (rounds : Nat) :
    ∃ after, (writeBacks address rounds).run chip =
      .ok (List.replicate rounds (.float number)) after ∧
      after.OnBank format (if rounds = 0 then registers else
        registers.put address (Bytes.ofUInt32 (format.canonical word))) := by
  induction rounds generalizing chip registers word with
  | zero => exact ⟨chip, rfl, h⟩
  | succ rounds ih =>
    obtain ⟨next, hround, hnext⟩ := exists_writeBack h hword hnumber
    -- what was written back is canonical, and decoded as the word before it
    obtain ⟨after, hrounds, hafter⟩ := ih hnext (RegisterMap.fetch_put_word ..)
      ((Parameter.decode_canonical format word).trans hnumber)
    rw [FixedPoint.canonical_canonical, RegisterMap.put_put, ite_self] at hafter
    refine ⟨after, ?_, hafter⟩
    rw [writeBacks, Actions.run_bind_ok hround, Actions.run_bind_ok hrounds]
    rfl

/-- What comes of a register word that is read as a number, and of encoding that number again. -/
structure KeepsWord (format : FixedPoint) (word : UInt32) : Prop where
  /-- The most negative steps, and no others, are those of no number. -/
  undecoded_iff : (∃ error, Parameter.decode format word = .error error) ↔
    format.signExtend word = -2 ^ format.magnitudeBits
  /-- The error names the steps. -/
  overflow : ∀ error, Parameter.decode format word = .error error →
    error = .fixedPointOverflow (Binary64.ofScaled (-2 ^ format.magnitudeBits) 0) format
  /-- The number is that of the steps. -/
  exact : ∀ number, Parameter.decode format word = .ok number →
    number.rational? = some ((format.signExtend word : ℚ) / 2 ^ format.fractionalBits)
  /-- The number is encoded as the same steps, which are written as the canonical word. -/
  restored : ∀ number, Parameter.decode format word = .ok number →
    Parameter.steps format number = .ok (format.signExtend word) ∧
      Parameter.encode format number = .ok (FixedPoint.word (format.signExtend word))
  canonical : FixedPoint.word (format.signExtend word) = format.canonical word
  /-- In 8.24 the canonical word is the word itself. -/
  all_bits : format = .q8_24 → format.canonical word = word
  /-- In 5.23 it is made of the 28 low bits, whatever stands above them. -/
  low_bits : format = .q5_23 → ∀ other : UInt32, other.toNat % 2 ^ 28 = word.toNat % 2 ^ 28 →
    format.canonical other = format.canonical word
  /-- Words are decoded to the same double, or to the same number, just if their steps are the
  same. -/
  same_iff : ∀ other number number', Parameter.decode format word = .ok number →
    Parameter.decode format other = .ok number' →
      (number = number' ↔ format.signExtend word = format.signExtend other) ∧
        (number.rational? = number'.rational? ↔ format.signExtend word = format.signExtend other)
  /-- A chip reads the word as the number. -/
  get : ∀ (chip : Chip) (address : UInt16), chip.family.fixedPoint = format →
    (chip.transport.read address 4).1 = .ok (Bytes.ofUInt32 word) →
      (getParameter address .float).run chip =
        (MonadExcept.ofExcept ((Parameter.decode format word).map Parameter.float) :
          ChipM Parameter).run
          (chip.afterRead address 4)
  /-- A chip sets the number by setting the canonical word. -/
  set : ∀ (chip : Chip) (address : UInt16) (number : Binary64), chip.family.fixedPoint = format →
    Parameter.decode format word = .ok number →
      (setParameter address (.float number)).run chip =
        (setWord address (format.canonical word)).run chip
  /-- On a register bank the number stays the same in every round, and no other register changes. -/
  rounds : ∀ (chip : Chip) (registers : RegisterMap) (address : UInt16) (number : Binary64)
      (rounds : Nat),
    chip.OnBank format registers → registers.fetch address 4 = Bytes.ofUInt32 word →
    Parameter.decode format word = .ok number →
      ∃ after, (writeBacks address rounds).run chip =
        .ok (List.replicate rounds (.float number)) after ∧
        after.OnBank format (if rounds = 0 then registers else
          registers.put address (Bytes.ofUInt32 (format.canonical word)))

/-- A word that is decoded is kept, up to the bits that do not count. -/
theorem keepsWord (format : FixedPoint) (word : UInt32) : KeepsWord format word where
  undecoded_iff := by
    rcases Parameter.decode_cases format word with ⟨hsteps, value, hvalue⟩ | ⟨hsteps, herror⟩
    · simp [hvalue, hsteps]
    · simp [herror, hsteps]
  overflow := by
    intro error herror
    rcases Parameter.decode_cases format word with ⟨_, value, hvalue⟩ | ⟨_, hoverflow⟩
    · rw [hvalue] at herror
      cases herror
    · exact Except.error.inj (herror.symm.trans hoverflow)
  exact := fun _ h => FixedPoint.rational?_of_decode? (Parameter.decode_eq_ok_iff.mp h)
  restored := by
    intro number h
    refine ⟨?_, ?_⟩
    · rw [Parameter.steps, FixedPoint.encode?_of_decode? (Parameter.decode_eq_ok_iff.mp h)]
    · rw [Parameter.encode_of_decode h, FixedPoint.word_signExtend]
  canonical := format.word_signExtend word
  all_bits := by
    rintro rfl
    exact FixedPoint.canonical_q8_24 word
  low_bits := by
    rintro rfl other hlow
    exact FixedPoint.canonical_congr hlow
  same_iff := fun _ _ _ h h' => ⟨Parameter.decode_inj h h', Parameter.rational?_decode_inj h h'⟩
  get := by
    rintro chip address rfl hread
    rw [getParameter, Actions.run_bind_ok (run_readUInt32_ok hread), Bytes.toUInt32_ofUInt32]
    dsimp only
    rw [Actions.run_bind_ok (run_fixedPoint _), Chip.family_afterRead]
    cases Parameter.decode chip.family.fixedPoint word <;> rfl
  set := by
    rintro chip address number rfl hnumber
    exact run_setParameter_of_decode hnumber address
  rounds := fun _ _ _ _ rounds h hword hnumber => exists_writeBacks h hword hnumber rounds

/-- A word of 5.23 with bits above the sign, one step from the word of no number.  The first round
puts the sign into these bits, and no round changes the number. -/
theorem keepsWord_looseTop :
    let bank : Bank := { registers := .put .empty 0x0210 [0x78, 0, 0, 1] }
    let chip : Chip := { family := .adau1x0x, transport := .memory bank, useSafeload := false }
    FixedPoint.canonical .q5_23 0x78000001 = 0xF8000001 ∧
    (∃ error, Parameter.decode .q5_23 0x78000000 = .error error) ∧
    ∃ after, (writeBacks 0x0210 3).run chip =
      .ok (List.replicate 3 (.float ⟨0xC02FFFFFFC000000⟩)) after ∧
      after.OnBank .q5_23 (.put (.put .empty 0x0210 [0x78, 0, 0, 1]) 0x0210 [0xF8, 0, 0, 1]) := by
  intro bank chip
  have hbank : chip.OnBank .q5_23 bank.registers := ⟨rfl, rfl, bank, rfl, rfl, rfl⟩
  have hword : bank.registers.fetch 0x0210 4 = Bytes.ofUInt32 0x78000001 := by decide +kernel
  have hnumber : Parameter.decode .q5_23 0x78000001 = .ok ⟨0xC02FFFFFFC000000⟩ := by decide +kernel
  refine ⟨by decide, ?_, ?_⟩
  · exact (keepsWord .q5_23 0x78000000).undecoded_iff.mpr (by decide)
  · exact (keepsWord .q5_23 0x78000001).rounds chip bank.registers 0x0210 _ 3 hbank hword hnumber

end ChipM

end TuningBridge
