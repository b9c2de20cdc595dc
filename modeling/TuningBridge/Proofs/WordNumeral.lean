import Mathlib.Logic.Equiv.Defs
import TuningBridge.Proofs.Numeral

/-!
# Numerals of 64-bit words

The numeral of a word is made of the bytes that shifts bring to its end, the first byte by the
longest shift, and of zeros where a shift would leave the word.  Reading a numeral shifts its bytes
into a word, the first eight at most.  On up to eight bytes writing and reading are inverse
bijections between the byte strings of a length and the words that fit it.
-/

namespace TuningBridge.Bytes

/-- The byte of a word with a number of bytes behind it; in front of the word there are zeros. -/
def byteAt (word : UInt64) (behind : Nat) : UInt8 :=
  if 64 ≤ 8 * behind then 0 else (word >>> UInt64.ofNat (8 * behind)).toUInt8

/-- Shift a byte into a word. -/
def shiftIn (word : UInt64) (byte : UInt8) : UInt64 := word <<< 8 ||| byte.toUInt64

/-- A shift by a number of bits is not cut off while it stays within the word. -/
theorem byteAt_eq (word : UInt64) (behind : Nat) :
    byteAt word behind = UInt8.ofNat (word.toNat >>> (8 * behind)) := by
  rw [byteAt]
  split
  · next hbeyond =>
    have hlt : word.toNat < 2 ^ (8 * behind) :=
      Nat.lt_of_lt_of_le word.toNat_lt (Nat.pow_le_pow_right (by decide) hbeyond)
    rw [Nat.shiftRight_eq_div_pow, Nat.div_eq_of_lt hlt]
    rfl
  · next hwithin =>
    have hshift : (UInt64.ofNat (8 * behind)).toNat % 64 = 8 * behind := by
      rw [UInt64.toNat_ofNat']
      omega
    rw [← UInt8.toNat_inj, UInt64.toNat_toUInt8, UInt64.toNat_shiftRight, hshift,
      UInt8.toNat_ofNat']

/-- The numeral of a word by its bytes. -/
theorem ofNat_eq_map (width : Nat) (word : UInt64) :
    ofNat width word.toNat = (List.range width).map fun index =>
      byteAt word (width - 1 - index) := by
  induction width with
  | zero => rfl
  | succ width ih =>
    rw [ofNat, ih, List.range_succ_eq_map, List.map_cons, List.map_map, byteAt_eq]
    refine congrArg _ (List.map_congr_left fun index _ => ?_)
    show byteAt word _ = byteAt word _
    congr 1
    omega

/-- A value has zeros in front of the digits that it needs. -/
theorem ofNat_add {width value : Nat} (h : value < 256 ^ width) (more : Nat) :
    ofNat (more + width) value = zeros more ++ ofNat width value := by
  induction more with
  | zero => rw [Nat.zero_add, zeros, List.replicate_zero, List.nil_append]
  | succ more ih =>
    have hlt : value < 2 ^ (8 * (more + width)) := by
      rw [Nat.pow_mul]
      exact Nat.lt_of_lt_of_le h (Nat.pow_le_pow_right (by decide) (Nat.le_add_left _ _))
    rw [Nat.succ_add, ofNat, ih, Nat.shiftRight_eq_div_pow, Nat.div_eq_of_lt hlt]
    rfl

/-- To shift a byte in is to append a digit, of which the word keeps what fits. -/
theorem shiftIn_ofNat (value : Nat) (byte : UInt8) :
    shiftIn (UInt64.ofNat value) byte = UInt64.ofNat (value * 256 + byte.toNat) := by
  have hbyte : byte.toNat < 2 ^ 8 := byte.toNat_lt
  have hkept : value % 2 ^ 64 * 2 ^ 8 % 2 ^ 64 = value % 2 ^ 56 * 2 ^ 8 := by omega
  rw [← UInt64.toNat_inj, shiftIn, UInt64.toNat_or, UInt64.toNat_shiftLeft, UInt64.toNat_ofNat',
    UInt64.toNat_ofNat', UInt8.toNat_toUInt64]
  -- the shift leaves the low byte free, so the bits that are joined are added
  calc (value % 2 ^ 64) <<< 8 % 2 ^ 64 ||| byte.toNat
      = (value % 2 ^ 56) <<< 8 ||| byte.toNat := by rw [Nat.shiftLeft_eq, hkept, Nat.shiftLeft_eq]
    _ = (value % 2 ^ 56) <<< 8 + byte.toNat := (Nat.shiftLeft_add_eq_or_of_lt hbyte _).symm
    _ = (value * 256 + byte.toNat) % 2 ^ 64 := by
      rw [Nat.shiftLeft_eq]
      omega

/-- A word is read by shifting in the first eight bytes. -/
theorem toWord_eq_foldl (bytes : Bytes) : toWord bytes = (bytes.take 8).foldl shiftIn 0 :=
  (List.foldl_hom UInt64.ofNat fun value byte => shiftIn_ofNat value byte).symm

/-- Byte strings of a length of up to eight are the numerals of the words that fit it. -/
def wordEquiv (width : Nat) (h : width ≤ 8) :
    {bytes : Bytes // bytes.length = width} ≃ {word : UInt64 // word.toNat < 256 ^ width} where
  toFun bytes := ⟨toWord bytes.1, by
    have hlt := toNat_toWord_lt bytes.1
    rwa [bytes.2] at hlt⟩
  invFun word := ⟨ofNat width word.1.toNat, length_ofNat width _⟩
  left_inv := by
    rintro ⟨bytes, rfl⟩
    exact Subtype.ext (ofNat_toWord h)
  right_inv word := Subtype.ext (toWord_ofNat h word.2)

/-- A byte string is a word, written with a number of bytes. -/
structure Writes (width : Nat) (word : UInt64) (bytes : Bytes) : Prop where
  length : bytes.length = width
  /-- Digits above the width are dropped. -/
  value : toNat bytes = word.toNat % 256 ^ width
  /-- Every byte is shifted to the end of the word, unless it is in front of the word. -/
  shifted : bytes = (List.range width).map fun index => byteAt word (width - 1 - index)
  /-- Beyond eight bytes there are zeros in front. -/
  leading : 8 ≤ width → bytes = zeros (width - 8) ++ ofNat 8 word.toNat
  /-- Up to eight bytes are read as what they denote. -/
  read : width ≤ 8 → (toWord bytes).toNat = word.toNat % 256 ^ width

/-- A word is read from a byte string. -/
structure Reads (bytes : Bytes) (word : UInt64) : Prop where
  /-- The first eight bytes are shifted in one after the other. -/
  shifted : word = (bytes.take 8).foldl shiftIn 0
  /-- Later bytes do not count. -/
  first : ∀ other : Bytes, other.take 8 = bytes.take 8 → toWord other = word
  /-- Up to eight bytes are written as they were. -/
  write : bytes.length ≤ 8 → ofNat bytes.length word.toNat = bytes

theorem writes (width : Nat) (word : UInt64) : Writes width word (ofNat width word.toNat) where
  length := length_ofNat width word.toNat
  value := toNat_ofNat width word.toNat
  shifted := ofNat_eq_map width word
  leading hwide := by
    have hlt : word.toNat < 256 ^ 8 := word.toNat_lt
    have hadd := ofNat_add hlt (width - 8)
    rwa [Nat.sub_add_cancel hwide] at hadd
  read hnarrow := by rw [toNat_toWord (by rwa [length_ofNat]), toNat_ofNat]

theorem reads (bytes : Bytes) : Reads bytes (toWord bytes) where
  shifted := toWord_eq_foldl bytes
  first other hother := by rw [toWord, hother, toWord]
  write := ofNat_toWord

/-- Words are written with any number of bytes and read from any, and on up to eight bytes these are
inverse bijections. -/
theorem word_numerals :
    (∀ (width : Nat) (word : UInt64), Writes width word (ofNat width word.toNat)) ∧
      (∀ bytes : Bytes, Reads bytes (toWord bytes)) ∧
      ∀ width ≤ 8, ∃ numeral :
          {bytes : Bytes // bytes.length = width} ≃ {word : UInt64 // word.toNat < 256 ^ width},
        (∀ bytes, (numeral bytes).1 = toWord bytes.1) ∧
          ∀ word, (numeral.symm word).1 = ofNat width word.1.toNat :=
  ⟨writes, reads, fun width h => ⟨wordEquiv width h, fun _ => rfl, fun _ => rfl⟩⟩

/-- With three bytes the first byte of a word of four is dropped. -/
theorem word_numerals_three :
    3 ≤ 8 ∧ (toWord (ofNat 3 (0x04050607 : UInt64).toNat)).toNat =
      (0x04050607 : UInt64).toNat % 256 ^ 3 ∧
      ofNat 3 (toWord [5, 6, 7]).toNat = [5, 6, 7] :=
  have h : 3 ≤ 8 := by decide
  ⟨h, (word_numerals.1 3 0x04050607).read h, (word_numerals.2.1 [5, 6, 7]).write h⟩

-- Of ten bytes the first two are zeros, and reading leaves the last two out.
example : ofNat 10 0x0102030405060708 = [0, 0, 1, 2, 3, 4, 5, 6, 7, 8] ∧
    toWord [0, 0, 1, 2, 3, 4, 5, 6, 7, 8] = 0x010203040506 := by decide +kernel

end TuningBridge.Bytes
