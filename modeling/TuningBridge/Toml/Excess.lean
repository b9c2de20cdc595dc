import TuningBridge.Toml.Value

/-!
# Numbers out of range

A document may write numbers of any size.  Integers of more than 128 bits and numbers beyond the
largest double are refused wherever they stand, also under keys that nobody asks for.  So are
spellings that pass for integers but have no value.  A portable document holds none of these, nor
integers of more than 64 bits.
-/

namespace TuningBridge.Toml

/-- A number that is refused. -/
inductive Excess
  | integer
  | float
  deriving DecidableEq, Repr

/-- The wording of a refusal. -/
def Excess.text : Excess → String
  | integer => "integer number overflowed"
  | float => "floating-point number overflowed"

/-- Whether an integer has at most 64 bits with a sign, which every reader of such documents
takes. -/
def fitsSigned64 (value : Int) : Bool :=
  -0x8000000000000000 ≤ value && value < 0x8000000000000000

/-- Whether an integer has more than 128 bits, with or without a sign. -/
def exceeds128 (value : Int) : Bool :=
  value < -0x80000000000000000000000000000000 || 0x100000000000000000000000000000000 ≤ value

/-- The entries of a table in the order of their keys. -/
def Entries.sorted (entries : Entries) : Entries :=
  entries.mergeSort fun first second => !decide (second.1.name < first.1.name)

/-- The finding with the least key. -/
def leastKey {α : Type} (findings : List (String × α)) : Option α :=
  let lesser (best next : String × α) := if next.1 < best.1 then next else best
  match findings with
  | [] => none
  | first :: rest => some (rest.foldl lesser first).2

mutual

/-- The first number that is refused, and its offset.  Tables are searched in the order of their
keys. -/
def Value.excess? (offset : Nat) : Value → Option (Nat × Excess)
  | .integer value => if exceeds128 value then some (offset, .integer) else none
  | .unreadable => some (offset, .integer)
  | .float .overflow => some (offset, .float)
  | .array items | .tables items => itemsExcess? items
  | .table _ entries => leastKey (entriesExcess entries)
  | _ => none

/-- The first number among items that is refused. -/
def itemsExcess? : List (Nat × Value) → Option (Nat × Excess)
  | [] => none
  | (offset, value) :: rest => (value.excess? offset).orElse fun _ => itemsExcess? rest

/-- The numbers that are refused under each key. -/
def entriesExcess : List (Key × Nat × Value) → List (String × Nat × Excess)
  | [] => []
  | (key, offset, value) :: rest =>
    match value.excess? offset with
    | some finding => (key.name, finding) :: entriesExcess rest
    | none => entriesExcess rest

end

mutual

/-- Whether a value holds no other numbers than those that every reader takes. -/
def Value.isPortable : Value → Bool
  | .integer value => fitsSigned64 value
  | .unreadable | .float .overflow => false
  | .array items | .tables items => itemsPortable items
  | .table _ entries => entriesPortable entries
  | _ => true

/-- Whether items hold no other numbers than those that every reader takes. -/
def itemsPortable : List (Nat × Value) → Bool
  | [] => true
  | (_, value) :: rest => value.isPortable && itemsPortable rest

/-- Whether entries hold no other numbers than those that every reader takes. -/
def entriesPortable : List (Key × Nat × Value) → Bool
  | [] => true
  | (_, _, value) :: rest => value.isPortable && entriesPortable rest

end

end TuningBridge.Toml
