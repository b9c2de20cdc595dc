import TuningBridge.Field
import TuningBridge.Operation

/-!
# Packet headers

A header is a list of named fields in the order of their offsets.  Fields are added one by one, and
one that overlaps another is refused; `Header.parse` fills all of them from a byte string and
`Header.bytes` writes them out, with zeros in the gaps.
-/

namespace TuningBridge

/-- The fields of a packet header, in the order of their offsets. -/
structure Header where
  /-- The fields, by offset; fields of equal offset in the order of their addition. -/
  fields : List Field
  deriving DecidableEq, Repr

namespace Header

/-- A header without fields. -/
def empty : Header := ⟨[]⟩

/-- The field of a name. -/
def get? (header : Header) (name : FieldName) : Option Field :=
  header.fields.find? (·.name = name)

/-- Whether a name is present. -/
def contains (header : Header) (name : FieldName) : Bool :=
  header.fields.any (·.name = name)

/-- The names in header order. -/
def names (header : Header) : List FieldName := header.fields.map (·.name)

/-- Put a field after all fields that do not start behind it. -/
def insertByOffset (field : Field) : List Field → List Field
  | [] => [field]
  | other :: rest =>
    if other.offset ≤ field.offset then other :: insertByOffset field rest
    else field :: other :: rest

/-- Add a field.  A name that is present leaves the header as it is, and a field that overlaps
another is refused; the error names the two, the one that starts first ahead. -/
def addField (header : Header) (field : Field) : Except Error Header :=
  if header.contains field.name then .ok header
  else
    match header.fields.find? (·.overlaps field) with
    | some other =>
      if other.offset ≤ field.offset then .error (.overlappingFields other.name field.name)
      else .error (.overlappingFields field.name other.name)
    | none => .ok ⟨insertByOffset field header.fields⟩

/-- Add a field of value zero. -/
def add (header : Header) (name : FieldName) (offset size : Nat) : Except Error Header := do
  header.addField (← Field.make name offset size)

/-- The header of a list of fields, added one after the other. -/
def ofFields (fields : List Field) : Except Error Header :=
  fields.foldlM addField empty

/-- The header of a list of names, offsets and sizes, with all values zero. -/
def ofLayout (layout : List (FieldName × Nat × Nat)) : Except Error Header :=
  layout.foldlM (fun header (name, offset, size) => header.add name offset size) empty

/-- The number of bytes that the fields hold. -/
def size (header : Header) : Nat :=
  header.fields.foldr (fun field total => field.size + total) 0

/-- Whether every field starts where the field before it ends. -/
def isContinuous (header : Header) : Bool :=
  (header.fields.zip header.fields.tail).all fun (field, next) => field.limit = next.offset

/-- The value of a field. -/
def value (header : Header) (name : FieldName) : Except Error UInt64 :=
  match header.get? name with
  | some field => .ok field.value
  | none => .error (.unknownField name)

/-- Change the first field of a name. -/
def modifyField (name : FieldName) (change : Field → Except Error Field) :
    List Field → Except Error (List Field)
  | [] => .error (.unknownField name)
  | field :: rest =>
    if field.name = name then (change field).map (· :: rest)
    else (modifyField name change rest).map (field :: ·)

/-- Store a number in the field of a name. -/
def set (header : Header) (name : FieldName) (value : UInt64) : Except Error Header :=
  (modifyField name (·.set value) header.fields).map Header.mk

/-- Store the number written by a byte string in the field of a name. -/
def setBytes (header : Header) (name : FieldName) (data : Bytes) : Except Error Header :=
  (modifyField name (·.setBytes data) header.fields).map Header.mk

/-- Copy the values of the given fields into the fields of the same names, up to the first value
that does not fit; fields of other names do not count. -/
def copyFields (header : Header) : List Field → Except Error Unit × Header
  | [] => (.ok (), header)
  | field :: rest =>
    if header.contains field.name then
      match header.set field.name field.value with
      | .ok changed => changed.copyFields rest
      | .error error => (.error error, header)
    else header.copyFields rest

/-- Copy the values of all fields that both headers have, in the order of the template. -/
def copyFrom (header template : Header) : Except Error Unit × Header :=
  header.copyFields template.fields

/-- Fill fields from their ranges of a byte string, up to the first range that it does not cover; a
range beyond the last offset is covered by none. -/
def parseFields (data : Bytes) : List Field → Except Error Unit × List Field
  | [] => (.ok (), [])
  | field :: rest =>
    if field.after ≤ data.length then
      let slice := (data.drop field.offset).take field.size
      let (result, parsed) := parseFields data rest
      (result, { field with value := Bytes.toWord slice } :: parsed)
    else (.error (.lengthMismatch field.limit data.length), field :: rest)

/-- Fill all fields from a byte string that has as many bytes as the fields hold. -/
def parse (header : Header) (data : Bytes) : Except Error Unit × Header :=
  if data.length = header.size then
    let (result, fields) := parseFields data header.fields
    (result, ⟨fields⟩)
  else (.error (.lengthMismatch header.size data.length), header)

/-- The bytes of a header whose fields end at offsets: every field at its offset, and zeros in the
gaps. -/
def bytes (header : Header) : Bytes :=
  header.fields.foldl
    (fun written field => written ++ Bytes.zeros (field.offset - written.length) ++ field.bytes) []

/-- The operation that the operation field holds, if it holds one. -/
def operation? (header : Header) : Option Operation := do
  let field ← header.get? .operation
  if field.value.toNat < 256 then Operation.ofCode? field.value.toUInt8 else none

/-- Whether the header is that of a write. -/
def isWrite (header : Header) : Bool := header.operation? = some .write

/-- Whether the header is that of a read request. -/
def isReadRequest (header : Header) : Bool := header.operation? = some .readRequest

/-- Whether the header is that of a read response. -/
def isReadResponse (header : Header) : Bool := header.operation? = some .readResponse

/-- Whether the header is that of a write whose safeload flag is exactly one. -/
def isSafeload (header : Header) : Bool :=
  header.isWrite && (header.get? .safeload).any (·.value = 1)

/-- Whether a payload follows the header. -/
def carriesPayload (header : Header) : Bool := header.isWrite || header.isReadResponse

/-- The register address. -/
def address (header : Header) : Except Error UInt16 := do
  let value ← header.value .address
  if value.toNat < 0x10000 then pure value.toUInt16
  else throw (.invalidFieldValue .address (.notAnAddress value.toNat))

/-- The declared number of data bytes. -/
def dataLength (header : Header) : Except Error Nat := do
  pure (← header.value .dataLength).toNat

end Header

end TuningBridge
