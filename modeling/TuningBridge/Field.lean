import TuningBridge.Error

/-!
# Header fields

A field is a named range of at most eight header bytes with a big-endian value.  Setting a field
either stores a value that fits its width or leaves the field as it was.  Offsets are 64-bit words,
so the end of a field that reaches the last offset starts over at zero.
-/

namespace TuningBridge

/-- A named range of header bytes and its value. -/
structure Field where
  /-- The name, unique within a header. -/
  name : FieldName
  /-- The first byte, a 64-bit offset. -/
  offset : Nat
  /-- The number of bytes. -/
  size : Nat
  /-- The value, below `256 ^ size`. -/
  value : UInt64
  deriving DecidableEq, Repr

namespace Field

/-- The widest field, in bytes. -/
def maxSize : Nat := 8

/-- A field of value zero. -/
def make (name : FieldName) (offset size : Nat) : Except Error Field :=
  if maxSize < size then .error (.invalidFieldValue name (.tooWide size))
  else .ok ⟨name, offset, size, 0⟩

/-- How many offsets there are. -/
def offsetCount : Nat := 0x10000000000000000

/-- The byte after the last byte of a field. -/
def after (field : Field) : Nat := field.offset + field.size

/-- The offset of the byte after a field, which starts over at zero behind the last offset. -/
def limit (field : Field) : Nat := field.after % offsetCount

/-- The last byte of a field; a field that ends at offset zero also has byte zero as its last
one. -/
def last (field : Field) : Nat := field.limit - 1

/-- Store a number that fits the width. -/
def set (field : Field) (value : UInt64) : Except Error Field :=
  if value.toNat < 1 <<< (8 * field.size) then .ok { field with value }
  else .error (.invalidFieldValue field.name (.doesNotFit value.toNat (field.size * 8)))

/-- Store the number written by exactly as many bytes as the field has. -/
def setBytes (field : Field) (data : Bytes) : Except Error Field :=
  if data.length = field.size then .ok { field with value := data.toWord }
  else .error (.invalidFieldValue field.name (.wrongLength field.size data.length))

/-- The bytes of a field. -/
def bytes (field : Field) : Bytes := Bytes.ofNat field.size field.value.toNat

/-- Whether each of two ranges starts before the offset at which the other ends. -/
def overlaps (field other : Field) : Bool :=
  field.offset < other.limit && other.offset < field.limit

end Field

end TuningBridge
