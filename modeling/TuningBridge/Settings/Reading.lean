import TuningBridge.Settings.Fault
import TuningBridge.Toml.Table

/-!
# Reading settings

A reading takes a value and its offset to a setting, or says why the value does not fit.  Numbers,
words and texts are read here, and records are made of them.
-/

namespace TuningBridge

/-- Reading a setting from a value and its offset. -/
abbrev Reading (α : Type) := Nat × Toml.Value → Except SettingFault α

namespace Reading

/-- Whether an integer has at most 64 bits, with or without a sign. -/
def fits64 (value : Int) : Bool := -0x8000000000000000 ≤ value && value < 0x10000000000000000

/-- The fault of a value of another type than the setting's. -/
def wrongType (expected : Expectation) (placed : Nat × Toml.Value) : SettingFault :=
  let fault (finding : Finding) : SettingFault := ⟨placed.1, .wrongType finding expected⟩
  match placed.2 with
  | .integer value =>
    if Toml.exceeds128 value then ⟨placed.1, .excess .integer⟩
    else if fits64 value then fault (.integer value)
    else fault (.wideInteger value)
  | .unreadable => ⟨placed.1, .excess .integer⟩
  | .float (.finite value) => fault (.float value)
  | .float .overflow => ⟨placed.1, .excess .float⟩
  | .boolean value => fault (.boolean value)
  | .string text => fault (.string text)
  | .array _ | .tables _ => fault .sequence
  | .datetime | .table .. => fault .map

/-- A natural number of at most so many bits, but no more than 64. -/
def natural (bits : Nat) (expected : Expectation) : Reading Nat
  | (offset, .integer value) =>
    if 0 ≤ value ∧ value.toNat < 1 <<< bits then .ok value.toNat
    else if fits64 value then .error ⟨offset, .outOfRange value expected⟩
    else .error (wrongType expected (offset, .integer value))
  | placed => .error (wrongType expected placed)

/-- A natural number of at most so many bits. -/
def unsigned (bits : Nat) : Reading Nat := natural bits (.unsigned bits)

/-- A number of bytes. -/
def size : Reading Nat := natural 64 .size

/-- A truth value. -/
def boolean : Reading Bool
  | (_, .boolean value) => .ok value
  | placed => .error (wrongType .boolean placed)

/-- A text. -/
def string : Reading String
  | (_, .string text) => .ok text
  | placed => .error (wrongType .string placed)

/-- One of several words. -/
def word {α : Type} (words : List (String × α)) (offset : Nat) (name : String) :
    Except SettingFault α :=
  match words.lookup name with
  | some value => .ok value
  | none => .error ⟨offset, .unknownVariant name (words.map (·.1))⟩

/-- What stands under a word has to be empty. -/
def emptyContent : Reading Unit
  | (_, .table _ []) | (_, .array []) => .ok ()
  | (offset, .table ..) => .error ⟨offset, .expectedEmptyTable⟩
  | (offset, .array _) | (offset, .tables _) => .error ⟨offset, .expectedEmptyArray⟩
  | (offset, value) => .error ⟨offset, .expectedTable value.kind⟩

/-- One of several words, as a text or as the only key of a table. -/
def choice {α : Type} (words : List (String × α)) : Reading α
  | (offset, .string name) => word words offset name
  | (offset, .table _ []) => .error ⟨offset, .emptyChoice⟩
  | (_, .table _ [(key, content)]) => do
    let value ← word words key.offset key.name
    emptyContent content
    return value
  | (offset, .table ..) => .error ⟨offset, .severalChoices⟩
  | (offset, _) => .error ⟨offset, .noWord⟩

end Reading

/-- Whether a record has to name a field. -/
inductive Need
  /-- The field has to be there. -/
  | always
  /-- The field can be left out of a table but not of an array. -/
  | inArrays
  | never
  deriving DecidableEq, Repr

/-- A field of a record: its key, and how its value is put into the record. -/
structure Slot (α : Type) where
  key : String
  need : Need
  put : Nat × Toml.Value → α → Except SettingFault α

/-- A field that is read and then set. -/
def Slot.reading {α β : Type} (key : String) (need : Need) (read : Reading β) (set : β → α → α) :
    Slot α where
  key := key
  need := need
  put placed record := return set (← read placed) record

/-- The shape of a record: its name, its fields in their order, and the record that the fields are
put into.  That record already holds what the fields stand for that are left out. -/
structure Shape (α : Type) where
  name : String
  blank : α
  slots : List (Slot α)

namespace Shape

variable {α : Type}

/-- Put the value under a key into a record; other keys than the record's are passed over. -/
def putEntry (shape : Shape α) (record : α) (entry : Toml.Key × Nat × Toml.Value) :
    Except SettingFault α :=
  match shape.slots.find? (·.key = entry.1.name) with
  | some slot => slot.put entry.2 record
  | none =>
    match entry.2.2.excess? entry.2.1 with
    | some (offset, number) => .error ⟨offset, .excess number⟩
    | none => .ok record

/-- A record from a table: the values in the order of their keys, then what is missing. -/
def ofEntries (shape : Shape α) (offset : Nat) (entries : Toml.Entries) :
    Except SettingFault α := do
  let record ← entries.sorted.foldlM shape.putEntry shape.blank
  match shape.slots.find? fun slot => slot.need = .always && !entries.has slot.key with
  | some slot => throw ⟨offset, .missing slot.key⟩
  | none => return record

/-- A record from an array: the values in the order of the fields, then what is missing. -/
def ofItems (shape : Shape α) (offset : Nat) (items : List (Nat × Toml.Value)) :
    Except SettingFault α := do
  let record ← (shape.slots.zip items).foldlM (fun record (slot, item) => slot.put item record)
    shape.blank
  match (shape.slots.zipIdx.drop items.length).find? fun (slot, _) => slot.need ≠ .never with
  | some (_, length) => throw ⟨offset, .tooShort length shape.name shape.slots.length⟩
  | none => return record

/-- A record.  A date reads as a table that has none of the record's keys. -/
def read (shape : Shape α) : Reading α
  | (offset, .table _ entries) => shape.ofEntries offset entries
  | (offset, .datetime) => shape.ofEntries offset []
  | (offset, .array items) | (offset, .tables items) => shape.ofItems offset items
  | placed => .error (Reading.wrongType (.record shape.name) placed)

end Shape

end TuningBridge
