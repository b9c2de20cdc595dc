import TuningBridge.Toml.Value

/-!
# Putting tables together

A document names its tables and values one after the other.  These functions put each of them into
the tables that are there already, and refuse what would define anything twice.
-/

namespace TuningBridge.Toml

namespace Entries

/-- The value of a key and its offset. -/
def get? (entries : Entries) (name : String) : Option (Nat × Value) :=
  (entries.find? (·.1.name = name)).map (·.2)

/-- Whether a key is present. -/
def has (entries : Entries) (name : String) : Bool := (entries.get? name).isSome

/-- Replace the value of a key that is present. -/
def replace (entries : Entries) (name : String) (value : Nat × Value) : Entries :=
  entries.map fun entry => if entry.1.name = name then (entry.1, value) else entry

/-- Replace a key that is present, together with its value. -/
def redefine (entries : Entries) (key : Key) (value : Nat × Value) : Entries :=
  entries.map fun entry => if entry.1.name = key.name then (key, value) else entry

/-- Add a key behind all others. -/
def append (entries : Entries) (key : Key) (value : Nat × Value) : Entries :=
  entries ++ [(key, value)]

/-- Change the table that a path of keys leads to.  Tables on the way that are not there are made,
with the given origin.  Of several tables under one key the last one is meant.  `passes` says which
tables the path may go through. -/
def descend (made : Origin) (passes : Origin → Bool)
    (change : Origin → Entries → Option Entries) :
    List Key → Origin → Entries → Option Entries
  | [], origin, entries => change origin entries
  | key :: path, _, entries =>
    match entries.get? key.name with
    | none => do
      let inner ← descend made passes change path made []
      some (entries.append key (key.offset, .table made inner))
    | some (offset, .table origin inner) => do
      if passes origin then
        let inner ← descend made passes change path origin inner
        some (entries.replace key.name (offset, .table origin inner))
      else none
    | some (offset, .tables items) => do
      let (last, value) ← items.getLast?
      match value with
      | .table origin inner =>
        let inner ← descend made passes change path origin inner
        some (entries.replace key.name
          (offset, .tables (items.dropLast ++ [(last, .table origin inner)])))
      | _ => none
    | some _ => none

/-- Put a value under a dotted key: the tables on the way are those of dotted keys. -/
def addValue (path : List Key) (key : Key) (value : Nat × Value) (entries : Entries) :
    Option Entries :=
  descend .dotted (fun origin => origin = .dotted || origin = .implied)
    (fun origin entries =>
      if entries.has key.name || (!path.isEmpty && origin != .dotted) then none
      else some (entries.append key value))
    path .header entries

/-- Define the table of a header.  A table that other headers have implied gets its own header, and
from then on stands where that header does. -/
def addTable (path : List Key) (key : Key) (offset : Nat) (entries : Entries) : Option Entries :=
  descend .implied (· != .inline)
    (fun _ entries =>
      match entries.get? key.name with
      | none => some (entries.append key (offset, .table .header []))
      | some (_, .table .implied inner) =>
        some (entries.redefine key (offset, .table .header inner))
      | some _ => none)
    path .header entries

/-- Add a table under a header in double brackets. -/
def addToTables (path : List Key) (key : Key) (offset : Nat) (entries : Entries) : Option Entries :=
  descend .implied (· != .inline)
    (fun _ entries =>
      match entries.get? key.name with
      | none => some (entries.append key (offset, .tables [(offset, .table .header [])]))
      | some (first, .tables items) =>
        some (entries.replace key.name (first, .tables (items ++ [(offset, .table .header [])])))
      | some _ => none)
    path .header entries

/-- Put a value under a dotted key of the table of a header. -/
def addValueUnder (header path : List Key) (key : Key) (value : Nat × Value) (entries : Entries) :
    Option Entries :=
  descend .implied (fun _ => true) (fun _ => addValue path key value) header .header entries

end Entries

end TuningBridge.Toml
