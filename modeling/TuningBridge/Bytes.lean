/-!
# Byte strings

Byte strings as lists, first byte first, and the big-endian numerals that headers and registers are
written in.  `Bytes.ofNat` writes a numeral of a given width, `Bytes.toNat` reads one.
-/

namespace TuningBridge

/-- A byte string, first byte first. -/
abbrev Bytes := List UInt8

namespace Bytes

/-- The big-endian numeral of the given width; digits above the width are dropped. -/
def ofNat : Nat → Nat → Bytes
  | 0, _ => []
  | width + 1, value => UInt8.ofNat (value >>> (8 * width)) :: ofNat width value

/-- The number that a big-endian numeral denotes. -/
def toNat (bytes : Bytes) : Nat :=
  bytes.foldl (fun value byte => value * 256 + byte.toNat) 0

/-- The 64-bit word written by the first eight bytes; later bytes do not count. -/
def toWord (bytes : Bytes) : UInt64 := UInt64.ofNat (toNat (bytes.take 8))

/-- The two bytes of a 16-bit word. -/
def ofUInt16 (word : UInt16) : Bytes := ofNat 2 word.toNat

/-- The four bytes of a 32-bit word. -/
def ofUInt32 (word : UInt32) : Bytes := ofNat 4 word.toNat

/-- The byte string cut, or padded with zeros on the right, to the given length. -/
def fit (length : Nat) (bytes : Bytes) : Bytes :=
  bytes.take length ++ List.replicate (length - bytes.length) 0

/-- A run of zero bytes. -/
def zeros (length : Nat) : Bytes := List.replicate length 0

/-- The consecutive four-byte words of a byte string; a remainder makes a shorter last word. -/
def words : Bytes → List Bytes
  | a :: b :: c :: d :: rest => [a, b, c, d] :: words rest
  | [] => []
  | short => [short]

/-- The number of words that a byte string occupies, a remainder counted as one. -/
def wordCount (bytes : Bytes) : Nat := (bytes.length + 3) / 4

/-- A numeral has as many bytes as asked for. -/
theorem length_ofNat (width value : Nat) : (ofNat width value).length = width := by
  induction width with
  | zero => rfl
  | succ width ih => simp [ofNat, ih]

/-- Bytes that are cut or padded to a length have it. -/
theorem length_fit (length : Nat) (bytes : Bytes) : (fit length bytes).length = length := by
  simp [fit]
  omega

end Bytes

end TuningBridge
