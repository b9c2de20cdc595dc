import TuningBridge.Header

/-!
# Chip families

The layout of a packet header depends on the operation and on the chip family: the first byte
selects the operation, and the family's layout for it is instantiated and filled.
-/

namespace TuningBridge

/-- The supported chip families. -/
inductive Family
  /-- ADAU145x and ADAU146x: wide header fields, safeload in software, 8.24 parameters. -/
  | adau14xx
  /-- ADAU1701 and ADAU1401: narrow header fields, safeload in hardware, 5.23 parameters. -/
  | adau1x0x
  deriving DecidableEq, Repr

namespace Family

/-- The name of a family. -/
def name : Family → String
  | adau14xx => "adau14xx"
  | adau1x0x => "adau1x0x"

/-- The spellings of the families in a settings file, in the order in which they are listed. -/
def spellings : List (String × Family) :=
  [("adau14xx", adau14xx), ("adau1701", adau1x0x), ("adau1x01", adau1x0x), ("adau1x0x", adau1x0x)]

/-- The family of a spelling. -/
def ofSpelling? (spelling : String) : Option Family := spellings.lookup spelling

/-- The family of a spelling in any ASCII case. -/
def ofName? (name : String) : Option Family := ofSpelling? (name.map Char.toLower)

/-- The format of the family's parameters. -/
def fixedPoint : Family → FixedPoint
  | adau14xx => .q8_24
  | adau1x0x => .q5_23

/-- The fields of a header, with their offsets and sizes. -/
def layout : Family → Operation → List (FieldName × Nat × Nat)
  | adau14xx, .write =>
    [(.operation, 0, 1), (.safeload, 1, 1), (.channel, 2, 1), (.totalLength, 3, 4),
      (.chipAddress, 7, 1), (.dataLength, 8, 4), (.address, 12, 2)]
  | adau14xx, .readRequest =>
    [(.operation, 0, 1), (.totalLength, 1, 4), (.chipAddress, 5, 1), (.dataLength, 6, 4),
      (.address, 10, 2), (.reserved, 12, 2)]
  | adau14xx, .readResponse =>
    [(.operation, 0, 1), (.totalLength, 1, 4), (.chipAddress, 5, 1), (.dataLength, 6, 4),
      (.address, 10, 2), (.success, 12, 1), (.reserved, 13, 1)]
  | adau1x0x, .write =>
    [(.operation, 0, 1), (.safeload, 1, 1), (.channel, 2, 1), (.totalLength, 3, 2),
      (.chipAddress, 5, 1), (.dataLength, 6, 2), (.address, 8, 2)]
  | adau1x0x, .readRequest =>
    [(.operation, 0, 1), (.totalLength, 1, 2), (.chipAddress, 3, 1), (.dataLength, 4, 2),
      (.address, 6, 2)]
  | adau1x0x, .readResponse =>
    [(.operation, 0, 1), (.dataLength, 1, 2), (.success, 3, 1)]

/-- The header of an operation, with all values zero. -/
def blankHeader (family : Family) (operation : Operation) : Except Error Header :=
  Header.ofLayout (family.layout operation)

/-- The header that a first byte selects, with the template's values in the fields that both have,
and the byte in the operation field. -/
def headerOfCode (family : Family) (code : UInt8) (template : Option Header) :
    Except Error Header := do
  let operation ← Operation.ofCode code
  let blank ← family.blankHeader operation
  let filled ←
    match template with
    | none => pure blank
    | some source =>
      match blank.copyFrom source with
      | (.ok (), filled) => pure filled
      | (.error error, _) => throw error
  filled.set .operation code.toUInt64

/-- The header of an operation, filled from a template. -/
def headerOf (family : Family) (operation : Operation) (template : Option Header) :
    Except Error Header :=
  family.headerOfCode operation.code template

end Family

end TuningBridge
