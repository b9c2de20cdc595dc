import Mathlib.Tactic.Linarith
import Mathlib.Tactic.Ring
import TuningBridge.Bytes

/-!
# Big-endian numerals

A byte string of length `n` denotes a number below `256 ^ n`, and the numeral of width `n` denotes
the value modulo `256 ^ n`.  On strings of one length reading is injective, so reading and writing
undo each other.  Words are read from at most eight bytes, where nothing is cut off.
-/

namespace TuningBridge.Bytes

private theorem foldl_eq_add (bytes : Bytes) (value : Nat) :
    bytes.foldl (fun value byte => value * 256 + byte.toNat) value =
      value * 256 ^ bytes.length + toNat bytes := by
  induction bytes generalizing value with
  | nil => simp [toNat]
  | cons byte rest ih =>
    have hrest : toNat (byte :: rest) = (0 * 256 + byte.toNat) * 256 ^ rest.length + toNat rest :=
      ih (0 * 256 + byte.toNat)
    rw [List.foldl_cons, ih, hrest, List.length_cons, pow_succ]
    ring

/-- The first byte counts most. -/
theorem toNat_cons (byte : UInt8) (rest : Bytes) :
    toNat (byte :: rest) = byte.toNat * 256 ^ rest.length + toNat rest := by
  rw [toNat, List.foldl_cons, foldl_eq_add]
  ring

/-- A byte string denotes a number that its length can hold. -/
theorem toNat_lt (bytes : Bytes) : toNat bytes < 256 ^ bytes.length := by
  induction bytes with
  | nil => simp [toNat]
  | cons byte rest ih =>
    have hbyte : byte.toNat + 1 ≤ 256 := byte.toNat_lt
    have hmul := Nat.mul_le_mul_right (256 ^ rest.length) hbyte
    rw [toNat_cons, List.length_cons, pow_succ]
    linarith

/-- Digits above the width are dropped. -/
theorem toNat_ofNat (width value : Nat) : toNat (ofNat width value) = value % 256 ^ width := by
  induction width with
  | zero => simp [ofNat, toNat, Nat.mod_one]
  | succ width ih =>
    have hshift : value >>> (8 * width) = value / 256 ^ width := by
      rw [Nat.shiftRight_eq_div_pow, pow_mul]
      norm_num
    have hbyte : (UInt8.ofNat (value / 256 ^ width)).toNat = value / 256 ^ width % 256 := by
      rw [UInt8.toNat_ofNat']
    rw [ofNat, toNat_cons, length_ofNat, ih, hshift, hbyte, pow_succ, Nat.mod_mul]
    ring

/-- The digits behind the first byte leave a quotient that is the first byte. -/
theorem toNat_cons_div (byte : UInt8) (rest : Bytes) :
    toNat (byte :: rest) / 256 ^ rest.length = byte.toNat := by
  have hlt := toNat_lt rest
  rw [toNat_cons, Nat.mul_comm, Nat.mul_add_div (by omega), Nat.div_eq_of_lt hlt, Nat.add_zero]

/-- Byte strings of one length are told apart by the numbers that they denote. -/
theorem toNat_inj {first second : Bytes} (hlen : first.length = second.length)
    (h : toNat first = toNat second) : first = second := by
  induction first generalizing second with
  | nil => exact (List.length_eq_zero_iff.mp hlen.symm).symm
  | cons byte rest ih =>
    cases second with
    | nil => simp at hlen
    | cons byte' rest' =>
      have hlen' : rest.length = rest'.length := by simpa using hlen
      have hbyte : byte.toNat = byte'.toNat := by
        rw [← toNat_cons_div byte rest, h, hlen', toNat_cons_div]
      rw [toNat_cons, toNat_cons, hlen', hbyte] at h
      rw [UInt8.toNat_inj.mp hbyte, ih hlen' (by omega)]

/-- Writing what was read gives the same bytes. -/
theorem ofNat_toNat (bytes : Bytes) : ofNat bytes.length (toNat bytes) = bytes := by
  apply toNat_inj (length_ofNat _ _)
  rw [toNat_ofNat, Nat.mod_eq_of_lt (toNat_lt bytes)]

/-- Up to eight bytes all of them count. -/
theorem toNat_toWord {bytes : Bytes} (h : bytes.length ≤ 8) :
    (toWord bytes).toNat = toNat bytes := by
  have hlt : toNat bytes < 2 ^ 64 :=
    (toNat_lt bytes).trans_le ((Nat.pow_le_pow_right (by norm_num) h).trans (by norm_num))
  rw [toWord, List.take_of_length_le h, UInt64.toNat_ofNat', Nat.mod_eq_of_lt hlt]

/-- Writing the word that was read from no more than eight bytes gives the same bytes. -/
theorem ofNat_toWord {bytes : Bytes} (h : bytes.length ≤ 8) :
    ofNat bytes.length (toWord bytes).toNat = bytes := by
  rw [toNat_toWord h, ofNat_toNat]

/-- The word that a byte string writes fits as many bytes, however many there are. -/
theorem toNat_toWord_lt (bytes : Bytes) : (toWord bytes).toNat < 256 ^ bytes.length := by
  have hshort : (bytes.take 8).length ≤ bytes.length := List.length_take_le' _ _
  calc (toWord bytes).toNat
      = toNat (bytes.take 8) % 2 ^ 64 := by rw [toWord, UInt64.toNat_ofNat']
    _ ≤ toNat (bytes.take 8) := Nat.mod_le _ _
    _ < 256 ^ (bytes.take 8).length := toNat_lt _
    _ ≤ 256 ^ bytes.length := Nat.pow_le_pow_right (by decide) hshort

/-- A word that fits a width of at most eight bytes survives being written and read. -/
theorem toWord_ofNat {width : Nat} (h : width ≤ 8) {word : UInt64} (hw : word.toNat < 256 ^ width) :
    toWord (ofNat width word.toNat) = word := by
  rw [← UInt64.toNat_inj, toNat_toWord (by rwa [length_ofNat]), toNat_ofNat, Nat.mod_eq_of_lt hw]

/-- A 16-bit word survives being written in as many bytes or more and read. -/
theorem toUInt16_ofNat {width : Nat} (hwidth : 2 ≤ width) (word : UInt16) :
    UInt16.ofNat (toNat (ofNat width word.toNat)) = word := by
  have hpow : 256 ^ 2 ≤ 256 ^ width := Nat.pow_le_pow_right (by decide) hwidth
  have hlt : word.toNat < 256 ^ width := Nat.lt_of_lt_of_le word.toNat_lt hpow
  rw [toNat_ofNat, Nat.mod_eq_of_lt hlt, UInt16.ofNat_toNat]

theorem length_ofUInt32 (word : UInt32) : (ofUInt32 word).length = 4 := length_ofNat 4 word.toNat

/-- A 32-bit word survives being written in its bytes and read. -/
theorem toUInt32_ofUInt32 (word : UInt32) : UInt32.ofNat (toNat (ofUInt32 word)) = word := by
  have hlt : word.toNat < 256 ^ 4 := word.toNat_lt
  rw [ofUInt32, toNat_ofNat, Nat.mod_eq_of_lt hlt, UInt32.ofNat_toNat]

/-- As many numbers fit the bits of a width as fit its bytes. -/
theorem one_shiftLeft (width : Nat) : 1 <<< (8 * width) = 256 ^ width := by
  rw [Nat.one_shiftLeft, pow_mul]
  norm_num

end TuningBridge.Bytes
