import TuningBridge.FixedPoint
import TuningBridge.Proofs.Numeral

/-!
# Gains as register words

A finite double is a whole number of units, so whether it lies between zero and one is a matter of
integers.  One that does is cut to a number of steps between zero and unity.  Unity is well below
what either format holds, so the encoding never fails, and the word of the steps reads as the same
number, with or without its sign.
-/

namespace TuningBridge

namespace Binary64

variable {x : Binary64}

/-- The units of one. -/
def unity : Nat := 2 ^ unitExponent

/-- Zero is no units. -/
theorem number_zero : zero.number = .finite false 0 := by decide

/-- One is as many units as `unity` counts. -/
theorem number_one : one.number = .finite false unity := by decide +kernel

/-- A gain from silence to full scale: a finite double that is neither below zero nor above one.
Zero may have either sign. -/
def IsGain (x : Binary64) : Prop :=
  ∃ negative units, x.number = .finite negative units ∧ units ≤ unity ∧
    (negative = true → units = 0)

/-- A finite double is a number of units with a sign. -/
theorem exists_number_of_isFinite (h : x.isFinite = true) :
    ∃ negative units, x.number = .finite negative units := by
  unfold isFinite at h
  split at h
  · next negative units hnumber => exact ⟨negative, units, hnumber⟩
  · cases h

/-- One is below a finite double just if that is positive and has more units. -/
theorem one_lt_iff {negative : Bool} {units : Nat} (h : x.number = .finite negative units) :
    one.lt x = true ↔ negative = false ∧ unity < units := by
  rw [lt, number_one, h]
  cases negative with
  | false =>
    simp only [Number.rank?, Bool.false_eq_true, if_false, decide_eq_true_eq,
      Int.ofNat_lt, true_and]
  | true =>
    have hbelow : ¬(unity : Int) < -(units : Int) := by omega
    simp only [Number.rank?, Bool.false_eq_true, Bool.true_eq_false, if_false, if_true,
      decide_eq_true_eq, hbelow, false_and]

/-- A finite double is below zero just if it is negative and not zero. -/
theorem lt_zero_iff {negative : Bool} {units : Nat} (h : x.number = .finite negative units) :
    x.lt zero = true ↔ negative = true ∧ 0 < units := by
  cases negative <;> simp [lt, number_zero, h, Number.rank?]

/-- A finite double moved into the interval from zero to one is a gain. -/
theorem isGain_clamp (h : x.isFinite = true) : (x.clamp zero one).IsGain := by
  obtain ⟨negative, units, hnumber⟩ := exists_number_of_isFinite h
  rw [clamp]
  split
  · exact ⟨false, unity, number_one, Nat.le_refl _, by simp⟩
  · next habove =>
    split
    · exact ⟨false, 0, number_zero, Nat.zero_le _, fun _ => rfl⟩
    · next hbelow =>
      rw [one_lt_iff hnumber] at habove
      rw [lt_zero_iff hnumber] at hbelow
      have hpositive : negative = true → units = 0 :=
        fun hnegative => Nat.eq_zero_of_not_pos fun hpos => hbelow ⟨hnegative, hpos⟩
      refine ⟨negative, units, hnumber, ?_, hpositive⟩
      cases negative with
      | false => exact Nat.not_lt.mp fun hunits => habove ⟨rfl, hunits⟩
      | true => exact hpositive rfl ▸ Nat.zero_le _

end Binary64

namespace FixedPoint

variable {format : FixedPoint} {word : UInt32}

/-- Full scale is below what a format holds. -/
theorem unity_lt_bound (format : FixedPoint) : 2 ^ format.fractionalBits < format.bound := by
  cases format <;> decide

/-- Twice the bound of a format is within 32 bits. -/
theorem two_mul_bound_le (format : FixedPoint) : 2 * format.bound ≤ 2 ^ 32 := by
  cases format <;> decide

/-- Steps that are not negative are their own word. -/
theorem toNat_word_natCast {steps : Nat} (h : steps < 2 ^ 32) :
    (FixedPoint.word steps).toNat = steps := by
  rw [FixedPoint.word, UInt32.toNat_ofNat']
  omega

/-- The number of a word, taken as steps, is that word. -/
theorem word_toNat (word : UInt32) : FixedPoint.word word.toNat = word :=
  UInt32.toNat_inj.mp (toNat_word_natCast word.toNat_lt)

/-- A word below the bound is not negative. -/
theorem signExtend_of_lt (h : word.toNat < format.bound) : format.signExtend word = word.toNat := by
  have hlow : word.toNat % (2 * format.bound) = word.toNat := Nat.mod_eq_of_lt (by omega)
  simp only [signExtend, hlow, if_pos h]

/-- A word from silence to full scale, which is also what it reads as with its sign. -/
structure IsGain (format : FixedPoint) (word : UInt32) : Prop where
  le_unity : word.toNat ≤ 2 ^ format.fractionalBits
  signed : format.signExtend word = word.toNat

/-- A gain is encoded as a word from silence to full scale. -/
theorem exists_encode?_of_isGain {gain : Binary64} (h : gain.IsGain) (format : FixedPoint) :
    ∃ word : UInt32, format.encode? gain = some (word.toNat : Int) ∧ format.IsGain word := by
  obtain ⟨negative, units, hnumber, hunits, hpositive⟩ := h
  generalize hsteps : units >>> (Binary64.unitExponent - format.fractionalBits) = steps
  have hfraction : format.fractionalBits ≤ Binary64.unitExponent := by cases format <;> decide
  have hle : steps ≤ 2 ^ format.fractionalBits := by
    rw [← hsteps, Nat.shiftRight_eq_div_pow]
    refine Nat.div_le_of_le_mul ?_
    rwa [pow_sub_mul_pow 2 hfraction, ← Binary64.unity]
  have hlt : steps < format.bound := Nat.lt_of_le_of_lt hle format.unity_lt_bound
  have hword : (FixedPoint.word (steps : Int)).toNat = steps :=
    toNat_word_natCast (by have := format.two_mul_bound_le; omega)
  refine ⟨FixedPoint.word steps, ?_, ?_⟩
  · simp only [encode?, hnumber, hsteps, hword]
    rw [if_pos hlt]
    cases negative with
    | false => rfl
    | true =>
      rw [hpositive rfl, Nat.zero_shiftRight] at hsteps
      subst hsteps
      rfl
  · exact ⟨hword.symm ▸ hle, signExtend_of_lt (hword.symm ▸ hlt)⟩

end FixedPoint

end TuningBridge
