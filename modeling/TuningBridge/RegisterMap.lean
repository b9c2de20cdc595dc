import TuningBridge.Bytes
import Std.Data.ExtTreeMap

/-!
# Register maps

The registers of a chip by their 16-bit addresses.  A block of several whole words is spread over
consecutive registers, one word each; any other data goes into one register.
-/

namespace TuningBridge

/-- The contents of the registers that hold something. -/
structure RegisterMap where
  /-- The contents by address. -/
  cells : Std.ExtTreeMap UInt16 Bytes

namespace RegisterMap

/-- A map without contents. -/
def empty : RegisterMap := ⟨∅⟩

instance : Inhabited RegisterMap := ⟨empty⟩

/-- The contents last put into a register. -/
def get? (map : RegisterMap) (address : UInt16) : Option Bytes := map.cells[address]?

/-- Replace the contents of one register. -/
def put (map : RegisterMap) (address : UInt16) (data : Bytes) : RegisterMap :=
  ⟨map.cells.insert address data⟩

/-- Every register that holds something, by address. -/
def toList (map : RegisterMap) : List (UInt16 × Bytes) := map.cells.toList

/-- Whether a length is spread over several registers: more than one word, and whole words only. -/
def isBlock (length : Nat) : Bool := 4 < length && length % 4 == 0

/-- Put one word after the other into consecutive registers; addresses wrap around. -/
def storeWords (map : RegisterMap) (address : UInt16) : Bytes → RegisterMap
  | a :: b :: c :: d :: rest => (map.put address [a, b, c, d]).storeWords (address + 1) rest
  | _ => map

/-- Store data at an address. -/
def store (map : RegisterMap) (address : UInt16) (data : Bytes) : RegisterMap :=
  if isBlock data.length then map.storeWords address data else map.put address data

/-- The contents of one register, cut or padded with zeros to a length. -/
def fetch (map : RegisterMap) (address : UInt16) (length : Nat) : Bytes :=
  Bytes.fit length ((map.get? address).getD [])

/-- Load data from an address on. -/
def load (map : RegisterMap) (address : UInt16) (length : Nat) : Bytes :=
  if isBlock length then
    (List.range (length / 4)).flatMap fun index => map.fetch (address + UInt16.ofNat index) 4
  else map.fetch address length

/-- A register that data is put into holds that data, and all others hold what they held. -/
theorem get?_put (map : RegisterMap) (address other : UInt16) (data : Bytes) :
    (map.put address data).get? other = if address = other then some data else map.get? other := by
  simp [get?, put, Std.ExtTreeMap.getElem?_insert]

/-- Maps with the same contents are equal. -/
theorem ext_get? {map other : RegisterMap} (h : ∀ address, map.get? address = other.get? address) :
    map = other := by
  cases map
  cases other
  exact congrArg _ (Std.ExtTreeMap.ext_getElem? h)

end RegisterMap

end TuningBridge
