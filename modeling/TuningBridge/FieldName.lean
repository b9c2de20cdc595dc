/-!
# Header field names

The names of all fields that appear in any packet header.
-/

namespace TuningBridge

/-- The name of a header field. -/
inductive FieldName
  | operation
  | safeload
  | channel
  | totalLength
  | chipAddress
  | dataLength
  | address
  | success
  | reserved
  deriving DecidableEq, Repr

namespace FieldName

/-- The written name. -/
def text : FieldName → String
  | operation => "operation"
  | safeload => "safeload"
  | channel => "channel"
  | totalLength => "total_length"
  | chipAddress => "chip_address"
  | dataLength => "data_length"
  | address => "address"
  | success => "success"
  | reserved => "reserved"

/-- Every name once. -/
def all : List FieldName :=
  [operation, safeload, channel, totalLength, chipAddress, dataLength, address, success, reserved]

/-- The field of a written name. -/
def ofText? (name : String) : Option FieldName := all.find? (·.text == name)

end FieldName

end TuningBridge
