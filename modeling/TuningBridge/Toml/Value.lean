import TuningBridge.Binary64

/-!
# Values of settings documents

The values that a document can hold.  Every value inside a table or an array knows the byte offset
at which it starts, and every table knows how it came into being, which decides whether it can be
extended.
-/

namespace TuningBridge.Toml

/-- How a table came into being. -/
inductive Origin
  /-- Its own header. -/
  | header
  /-- The path of another table's header. -/
  | implied
  /-- The path of a dotted key. -/
  | dotted
  /-- Braces; such a table is complete. -/
  | inline
  deriving DecidableEq, Repr

/-- A number with a fraction or an exponent. -/
inductive Real
  | finite (value : Binary64)
  /-- A number beyond the largest double. -/
  | overflow
  deriving Repr

/-- A key and the byte offset at which it is written. -/
structure Key where
  name : String
  offset : Nat
  deriving DecidableEq, Repr

/-- A value. -/
inductive Value
  | string (text : String)
  | integer (value : Int)
  /-- A spelling that passes for an integer but has no value. -/
  | unreadable
  | float (value : Real)
  | boolean (value : Bool)
  /-- A date, a time, or both. -/
  | datetime
  /-- Values in brackets, with their offsets. -/
  | array (items : List (Nat × Value))
  /-- Tables under a header in double brackets, with the offsets of their headers. -/
  | tables (items : List (Nat × Value))
  /-- Values by key, with their offsets. -/
  | table (origin : Origin) (entries : List (Key × Nat × Value))

/-- The contents of a table: keys, the offsets of their values, and the values. -/
abbrev Entries := List (Key × Nat × Value)

/-- The name of a kind of value. -/
def Value.kind : Value → String
  | string _ => "string"
  | integer _ | unreadable => "integer"
  | float _ => "float"
  | boolean _ => "boolean"
  | datetime => "datetime"
  | array _ | tables _ => "array"
  | table .. => "table"

end TuningBridge.Toml
