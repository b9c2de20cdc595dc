import Mathlib.Data.Rat.Floor
import Mathlib.Tactic.Positivity
import TuningBridge.Binary64

/-!
# Doubles as rational numbers

A finite double denotes its units over `2 ^ 1074`.  Units of at most 53 digits, with any number of
zeros behind them, are those of a double, so a small number of steps of a power of two is denoted
exactly.
-/

namespace TuningBridge.Binary64

variable {x : Binary64} {negative : Bool} {exponent fraction units : Nat}

/-- A double by its sign, its biased exponent and its fraction. -/
def ofParts (negative : Bool) (exponent fraction : Nat) : Binary64 :=
  ⟨UInt64.ofNat ((if negative then signBit else 0) + exponent * leadingBit + fraction)⟩

/-- The parts are read back, unless the exponent is the one of what is not finite. -/
theorem number_ofParts (negative : Bool) (hexponent : exponent < 2047)
    (hfraction : fraction < leadingBit) :
    (ofParts negative exponent fraction).number =
      .finite negative
        (if exponent = 0 then fraction else (leadingBit + fraction) <<< (exponent - 1)) := by
  have hbits : (ofParts negative exponent fraction).bits.toNat =
      (if negative then signBit else 0) + exponent * leadingBit + fraction := by
    rw [ofParts, UInt64.toNat_ofNat', Nat.mod_eq_of_lt]
    simp only [leadingBit, signBit] at hfraction ⊢
    split <;> omega
  have hsign : (ofParts negative exponent fraction).negative = negative := by
    rw [Binary64.negative, hbits]
    cases negative <;> simp [leadingBit, signBit] at hfraction ⊢ <;> omega
  have hbiased : (ofParts negative exponent fraction).exponent = exponent := by
    rw [Binary64.exponent, hbits]
    simp only [leadingBit, signBit] at hfraction ⊢
    split <;> omega
  have hrest : (ofParts negative exponent fraction).fraction = fraction := by
    rw [Binary64.fraction, hbits]
    simp only [leadingBit, signBit] at hfraction ⊢
    split <;> omega
  rw [number, hbiased, hrest, hsign, if_neg (by omega)]
  split <;> rfl

/-- The leading digits of units are below the 54th bit, and they reach the 53rd if any digits stand
behind them. -/
theorem leading_digits (units : Nat) : units >>> (units.log2 - 52) < 2 * leadingBit ∧
    (units.log2 - 52 ≠ 0 → leadingBit ≤ units >>> (units.log2 - 52)) := by
  rw [Nat.shiftRight_eq_div_pow]
  constructor
  · refine Nat.div_lt_of_lt_mul ?_
    calc units < 2 ^ (units.log2 + 1) := Nat.lt_log2_self
      _ ≤ 2 ^ (units.log2 - 52 + 53) := Nat.pow_le_pow_right (by decide) (by omega)
      _ = 2 ^ (units.log2 - 52) * (2 * leadingBit) := Nat.pow_add 2 _ 53
  · intro hexcess
    have hunits : units ≠ 0 := by
      rintro rfl
      exact hexcess rfl
    rw [Nat.le_div_iff_mul_le (Nat.two_pow_pos _)]
    calc leadingBit * 2 ^ (units.log2 - 52)
      _ = 2 ^ (52 + (units.log2 - 52)) := (Nat.pow_add 2 52 _).symm
      _ = 2 ^ units.log2 := by rw [Nat.add_sub_cancel' (by omega)]
      _ ≤ units := Nat.log2_self_le hunits

/-- Units of at most 53 digits, with any number of zeros behind them, are those of a double. -/
theorem number_ofUnits (negative : Bool) (hsmall : units.log2 < 2098)
    (hzeros : 2 ^ (units.log2 - 52) ∣ units) :
    (ofUnits negative units).number = .finite negative units := by
  obtain ⟨hmantissa, hleading⟩ := leading_digits units
  have hexcess : units.log2 - 52 < 2046 := by omega
  have hunits : (units >>> (units.log2 - 52)) <<< (units.log2 - 52) = units := by
    rw [Nat.shiftLeft_eq, Nat.shiftRight_eq_div_pow, Nat.div_mul_cancel hzeros]
  rw [ofUnits]
  generalize units.log2 - 52 = excess, units >>> (units.log2 - 52) = mantissa at *
  -- Without the leading bit nothing is cut off, and the biased exponent is zero; with it, the
  -- exponent is one more.
  by_cases hsubnormal : mantissa < leadingBit
  · obtain rfl : excess = 0 := by omega
    exact (number_ofParts negative (by decide) hsubnormal).trans
      (congrArg (Number.finite negative) hunits)
  · have hparts : (if negative then signBit else 0) + excess * leadingBit + mantissa =
        (if negative then signBit else 0) + (excess + 1) * leadingBit +
          (mantissa - leadingBit) := by
      rw [Nat.add_mul]
      omega
    simp only [hparts]
    refine (number_ofParts negative (by omega) (by omega)).trans ?_
    rw [if_neg (Nat.succ_ne_zero excess), Nat.add_sub_cancel,
      Nat.add_sub_cancel' (Nat.not_lt.mp hsubnormal), hunits]

/-- Few steps of a power of two are a double. -/
theorem number_ofScaled {value : Int} (hvalue : value.natAbs < 2 ^ 53) (fractionalBits : Nat) :
    (ofScaled value fractionalBits).number =
      .finite (value < 0) (value.natAbs <<< (unitExponent - fractionalBits)) := by
  have hshift : unitExponent - fractionalBits ≤ 1074 := Nat.sub_le ..
  rw [ofScaled]
  generalize unitExponent - fractionalBits = shift, value.natAbs = steps at *
  have hlog : (steps <<< shift).log2 < 53 + shift := by
    by_cases hzero : steps <<< shift = 0
    · rw [hzero, Nat.log2_zero]
      omega
    · rw [Nat.log2_lt hzero, Nat.shiftLeft_eq, Nat.pow_add]
      exact Nat.mul_lt_mul_of_pos_right hvalue (Nat.two_pow_pos shift)
  have hzeros : 2 ^ shift ∣ steps <<< shift :=
    Nat.shiftLeft_eq steps shift ▸ Nat.dvd_mul_left _ steps
  exact number_ofUnits _ (by omega) ((Nat.pow_dvd_pow 2 (by omega)).trans hzeros)

/-- The whole number of a sign and a magnitude. -/
def signed (negative : Bool) (magnitude : Nat) : ℤ := if negative then -magnitude else magnitude

/-- The sign does not count for the magnitude. -/
theorem abs_signed (negative : Bool) (magnitude : Nat) :
    |signed negative magnitude| = magnitude := by
  cases negative <;> simp [signed]

/-- An integer is its magnitude with its sign. -/
theorem signed_natAbs (value : ℤ) : signed (value < 0) value.natAbs = value := by
  by_cases hnegative : value < 0
  · rw [signed, decide_eq_true hnegative, if_pos rfl]
    omega
  · rw [signed, decide_eq_false hnegative, if_neg Bool.false_ne_true]
    omega

/-- A factor that is not negative leaves the sign. -/
theorem signed_mul (negative : Bool) (magnitude factor : Nat) :
    signed negative (magnitude * factor) = signed negative magnitude * factor := by
  cases negative <;> simp [signed]

/-- The rational number that a finite double denotes. -/
def rational? (x : Binary64) : Option ℚ :=
  match x.number with
  | .finite negative units => some (signed negative units / 2 ^ unitExponent)
  | _ => none

/-- The rational of a finite double is its units, scaled down. -/
theorem rational?_of_number (h : x.number = .finite negative units) :
    x.rational? = some ((signed negative units : ℚ) / 2 ^ unitExponent) := by
  rw [rational?, h]

/-- Only finite doubles have a rational. -/
theorem exists_number_of_rational? {value : ℚ} (h : x.rational? = some value) :
    ∃ negative units, x.number = .finite negative units ∧
      value = (signed negative units : ℚ) / 2 ^ unitExponent := by
  rw [rational?] at h
  split at h
  · next negative units hnumber => exact ⟨negative, units, hnumber, (Option.some.inj h).symm⟩
  · cases h

/-- Few steps of a power of two are denoted exactly. -/
theorem rational?_ofScaled {value : ℤ} (hvalue : value.natAbs < 2 ^ 53) {fractionalBits : Nat}
    (hbits : fractionalBits ≤ unitExponent) :
    (ofScaled value fractionalBits).rational? = some ((value : ℚ) / 2 ^ fractionalBits) := by
  have hpow : (2 : ℚ) ^ unitExponent = 2 ^ (unitExponent - fractionalBits) * 2 ^ fractionalBits :=
    (pow_sub_mul_pow 2 hbits).symm
  rw [rational?_of_number (number_ofScaled hvalue fractionalBits), Nat.shiftLeft_eq, signed_mul,
    signed_natAbs, hpow]
  push_cast
  rw [mul_comm (2 ^ (unitExponent - fractionalBits) : ℚ), mul_div_mul_right _ _ (by positivity)]

example : (⟨0xBFF8000000000000⟩ : Binary64).rational? = some (-3 / 2) := by decide +kernel

end TuningBridge.Binary64
