import TuningBridge.Proofs.Encoding
import TuningBridge.Proofs.Rational

/-!
# Numbers cut to fixed-point steps

Encoding a double cuts the number that it denotes toward zero to a multiple of the step.  It
succeeds exactly below the format's limit, and the word of the steps is read with its sign as the
same steps, so decoding it gives the cut number.
-/

namespace TuningBridge

/-- A rational number cut toward zero to a whole number. -/
def truncate (value : ℚ) : ℤ := if value < 0 then ⌈value⌉ else ⌊value⌋

/-- Numbers below zero are cut as those above. -/
theorem truncate_neg (value : ℚ) : truncate (-value) = -truncate value := by
  rw [truncate, truncate]
  rcases lt_trichotomy value 0 with hneg | rfl | hpos
  · rw [if_neg (by linarith), if_pos hneg, Int.floor_neg]
  · simp
  · rw [if_pos (by linarith), if_neg (by linarith), Int.ceil_neg]

theorem truncate_of_nonneg {value : ℚ} (h : 0 ≤ value) : truncate value = ⌊value⌋ :=
  if_neg (not_lt.mpr h)

/-- A number that is not negative is cut to a whole number between zero and itself, less than one
below it. -/
theorem truncate_between_of_nonneg {value : ℚ} (h : 0 ≤ value) :
    0 ≤ (truncate value : ℚ) ∧ (truncate value : ℚ) ≤ value ∧ value < truncate value + 1 := by
  rw [truncate_of_nonneg h]
  exact ⟨mod_cast Int.floor_nonneg.mpr h, Int.floor_le value, Int.lt_floor_add_one value⟩

/-- A number that is not positive is cut to a whole number between itself and zero, less than one
above it. -/
theorem truncate_between_of_nonpos {value : ℚ} (h : value ≤ 0) :
    (truncate value : ℚ) ≤ 0 ∧ value ≤ truncate value ∧ (truncate value : ℚ) < value + 1 := by
  obtain ⟨hpos, hle, hlt⟩ := truncate_between_of_nonneg (neg_nonneg.mpr h)
  rw [truncate_neg] at hpos hle hlt
  push_cast at hpos hle hlt
  exact ⟨by linarith, by linarith, by linarith⟩

/-- Cutting goes toward zero. -/
theorem abs_truncate_le (value : ℚ) : |(truncate value : ℚ)| ≤ |value| := by
  rcases le_total 0 value with h | h
  · obtain ⟨hpos, hle, _⟩ := truncate_between_of_nonneg h
    rwa [abs_of_nonneg hpos, abs_of_nonneg h]
  · obtain ⟨hneg, hle, _⟩ := truncate_between_of_nonpos h
    rw [abs_of_nonpos hneg, abs_of_nonpos h]
    exact neg_le_neg hle

theorem mul_truncate_nonneg (value : ℚ) : 0 ≤ value * truncate value := by
  rcases le_total 0 value with h | h
  · exact mul_nonneg h (truncate_between_of_nonneg h).1
  · exact mul_nonneg_of_nonpos_of_nonpos h (truncate_between_of_nonpos h).1

/-- Less than one is cut off. -/
theorem abs_sub_truncate_lt (value : ℚ) : |value - truncate value| < 1 := by
  rw [abs_lt]
  rcases le_total 0 value with h | h
  · obtain ⟨_, hle, hlt⟩ := truncate_between_of_nonneg h
    constructor <;> linarith
  · obtain ⟨_, hle, hlt⟩ := truncate_between_of_nonpos h
    constructor <;> linarith

/-- A quotient is cut as the one of the magnitudes, whatever the sign. -/
theorem truncate_signed_div (negative : Bool) (magnitude divisor : Nat) :
    truncate ((Binary64.signed negative magnitude : ℚ) / divisor) =
      Binary64.signed negative (magnitude / divisor) := by
  have hdiv : truncate ((magnitude : ℚ) / divisor) = (magnitude / divisor : ℕ) := by
    rw [truncate_of_nonneg (by positivity), Rat.floor_natCast_div_natCast]
    rfl
  cases negative with
  | false => exact hdiv
  | true =>
    rw [Binary64.signed, Binary64.signed, if_pos rfl, if_pos rfl, ← hdiv, ← truncate_neg]
    push_cast
    rw [neg_div]

namespace FixedPoint

variable {format : FixedPoint} {value : Binary64} {number : ℚ} {steps : ℤ}

/-- One more than what the integer bits hold. -/
def limit (format : FixedPoint) : ℚ := 2 ^ (format.magnitudeBits - format.fractionalBits)

example : limit .q8_24 = 128 ∧ limit .q5_23 = 16 := by decide +kernel

/-- A number cut toward zero to a multiple of the step. -/
def cut (format : FixedPoint) (number : ℚ) : ℚ :=
  truncate (number * 2 ^ format.fractionalBits) / 2 ^ format.fractionalBits

/-- What is kept of a number that is cut: no more magnitude, not the opposite sign, and less than a
step away. -/
structure Cuts (format : FixedPoint) (number kept : ℚ) : Prop where
  toward_zero : kept = format.cut number
  abs_le : |kept| ≤ |number|
  same_sign : 0 ≤ number * kept
  close : |number - kept| < 1 / 2 ^ format.fractionalBits

/-- Cutting at the step is cutting to a whole number of steps. -/
theorem cuts_cut (format : FixedPoint) (number : ℚ) : format.Cuts number (format.cut number) := by
  have hscale : (0 : ℚ) < 2 ^ format.fractionalBits := by positivity
  have habs := abs_truncate_le (number * 2 ^ format.fractionalBits)
  have hsign := mul_truncate_nonneg (number * 2 ^ format.fractionalBits)
  have hclose := abs_sub_truncate_lt (number * 2 ^ format.fractionalBits)
  refine ⟨rfl, ?_, ?_, ?_⟩
  · rw [cut, abs_div, abs_of_pos hscale, div_le_iff₀ hscale]
    rwa [abs_mul, abs_of_pos hscale] at habs
  · rw [cut, ← mul_div_assoc]
    refine div_nonneg (nonneg_of_mul_nonneg_left ?_ hscale) hscale.le
    rwa [mul_right_comm] at hsign
  · rw [lt_div_iff₀ hscale]
    calc |number - format.cut number| * 2 ^ format.fractionalBits
      _ = |(number - format.cut number) * 2 ^ format.fractionalBits| := by
          rw [abs_mul, abs_of_pos hscale]
      _ = |number * 2 ^ format.fractionalBits - truncate (number * 2 ^ format.fractionalBits)| := by
          rw [sub_mul, cut, div_mul_cancel₀ _ hscale.ne']
      _ < 1 := hclose

-- One and a half steps below zero are cut to one.
example : cut .q5_23 (-3 / 2 ^ 24) = -1 / 2 ^ 23 := by decide +kernel

theorem fractionalBits_le_magnitudeBits (format : FixedPoint) :
    format.fractionalBits ≤ format.magnitudeBits := by
  cases format <;> decide

theorem fractionalBits_le_unitExponent (format : FixedPoint) :
    format.fractionalBits ≤ Binary64.unitExponent := by
  cases format <;> decide

/-- The steps of a double are below the bound just if the number that it denotes is below the
limit. -/
theorem steps_lt_bound_iff (format : FixedPoint) (units : Nat) :
    units >>> (Binary64.unitExponent - format.fractionalBits) < format.bound ↔
      (units : ℚ) / 2 ^ Binary64.unitExponent < format.limit := by
  have hbits := format.fractionalBits_le_unitExponent
  have hpow : 2 ^ (format.magnitudeBits - format.fractionalBits) * 2 ^ Binary64.unitExponent =
      2 ^ format.magnitudeBits * 2 ^ (Binary64.unitExponent - format.fractionalBits) := by
    rw [← Nat.pow_add, ← Nat.pow_add]
    have hmagnitude := format.fractionalBits_le_magnitudeBits
    congr 1
    omega
  rw [Nat.shiftRight_eq_div_pow, Nat.div_lt_iff_lt_mul (Nat.two_pow_pos _), bound,
    Nat.one_shiftLeft, ← hpow, limit, div_lt_iff₀ (by positivity)]
  exact_mod_cast Iff.rfl

/-- A double that denotes a number is encoded as its steps if the number is below the limit. -/
theorem encode?_of_rational? (h : value.rational? = some number) :
    format.encode? value =
      if |number| < format.limit then some (truncate (number * 2 ^ format.fractionalBits))
      else none := by
  obtain ⟨negative, units, hnumber, rfl⟩ := Binary64.exists_number_of_rational? h
  have hbits := format.fractionalBits_le_unitExponent
  have hscaled :
      (Binary64.signed negative units : ℚ) / 2 ^ Binary64.unitExponent * 2 ^ format.fractionalBits =
        (Binary64.signed negative units : ℚ) /
          (2 ^ (Binary64.unitExponent - format.fractionalBits) : ℕ) := by
    rw [← pow_sub_mul_pow 2 hbits, Nat.cast_pow, Nat.cast_ofNat, div_mul_eq_mul_div,
      mul_div_mul_right _ _ (by positivity)]
  have hpos : (0 : ℚ) < 2 ^ Binary64.unitExponent := by positivity
  have habs : |(Binary64.signed negative units : ℚ) / 2 ^ Binary64.unitExponent| =
      (units : ℚ) / 2 ^ Binary64.unitExponent := by
    rw [abs_div, ← Int.cast_abs, Binary64.abs_signed, abs_of_pos hpos, Int.cast_natCast]
  rw [hscaled, truncate_signed_div, habs, encode?, hnumber, ← Nat.shiftRight_eq_div_pow]
  simp only [← steps_lt_bound_iff]
  rfl

/-- An infinity, and what is not a number, is not encoded. -/
theorem encode?_of_not_rational (h : value.rational? = none) : format.encode? value = none := by
  rw [Binary64.rational?] at h
  rw [encode?]
  cases hnumber : value.number with
  | nan => rfl
  | infinite negative => rfl
  | finite negative units =>
    rw [hnumber] at h
    cases h

/-- A double is encoded just if it denotes a number below the limit, and then as the steps of that
number. -/
theorem encode?_eq_some_iff : format.encode? value = some steps ↔
    ∃ number, value.rational? = some number ∧ |number| < format.limit ∧
      truncate (number * 2 ^ format.fractionalBits) = steps := by
  constructor
  · intro h
    cases hvalue : value.rational? with
    | none =>
      rw [encode?_of_not_rational hvalue] at h
      cases h
    | some number =>
      rw [encode?_of_rational? hvalue] at h
      split at h
      · next hlt => exact ⟨number, rfl, hlt, Option.some.inj h⟩
      · cases h
  · rintro ⟨number, hvalue, hlt, rfl⟩
    rw [encode?_of_rational? hvalue, if_pos hlt]

/-- The bound is the limit, counted in steps. -/
theorem natCast_bound (format : FixedPoint) :
    (format.bound : ℚ) = format.limit * 2 ^ format.fractionalBits := by
  rw [bound, Nat.one_shiftLeft, limit, pow_sub_mul_pow 2 format.fractionalBits_le_magnitudeBits]
  norm_cast

/-- The steps of a number below the limit are below the bound. -/
theorem natAbs_truncate_lt (h : |number| < format.limit) :
    (truncate (number * 2 ^ format.fractionalBits)).natAbs < format.bound := by
  have hscale : (0 : ℚ) < 2 ^ format.fractionalBits := by positivity
  have hsteps : |(truncate (number * 2 ^ format.fractionalBits) : ℚ)| < format.bound :=
    calc |(truncate (number * 2 ^ format.fractionalBits) : ℚ)|
        ≤ |number * 2 ^ format.fractionalBits| := abs_truncate_le _
      _ = |number| * 2 ^ format.fractionalBits := by rw [abs_mul, abs_of_pos hscale]
      _ < format.limit * 2 ^ format.fractionalBits := mul_lt_mul_of_pos_right h hscale
      _ = format.bound := format.natCast_bound.symm
  rw [← Int.cast_abs, Int.abs_eq_natAbs] at hsteps
  exact_mod_cast hsteps

/-- The word of steps below the bound is read with its sign as these steps. -/
theorem signExtend_word (h : steps.natAbs < format.bound) :
    format.signExtend (FixedPoint.word steps) = steps := by
  have hword : (FixedPoint.word steps).toNat = (steps % 0x100000000).toNat := by
    rw [FixedPoint.word, UInt32.toNat_ofNat']
    omega
  obtain hbound | hbound : format.bound = 2 ^ 31 ∨ format.bound = 2 ^ 27 := by
    cases format <;> decide
  all_goals
    simp only [signExtend, hword, hbound] at h ⊢
    split <;> omega

/-- Steps below the bound are decoded as the number that they stand for. -/
theorem exists_decode?_of_lt (h : steps.natAbs < format.bound) :
    ∃ value, format.decode? steps = some value ∧
      value.rational? = some ((steps : ℚ) / 2 ^ format.fractionalBits) := by
  have hdigits : steps.natAbs < 2 ^ 53 := by
    have hbound := format.two_mul_bound_le
    omega
  refine ⟨Binary64.ofScaled steps format.fractionalBits, if_pos h, ?_⟩
  exact Binary64.rational?_ofScaled hdigits format.fractionalBits_le_unitExponent

end FixedPoint

end TuningBridge
