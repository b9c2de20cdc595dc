import TuningBridge.Binary64.Decimal
import TuningBridge.Text.Literal
import TuningBridge.Toml.Excess

/-!
# Faults of a setting

Why the value under a key is no value of its setting.  A fault knows the byte offset of what it is
about.
-/

namespace TuningBridge

/-- What a setting has to be. -/
inductive Expectation
  /-- A number of at most so many bits. -/
  | unsigned (bits : Nat)
  /-- A number of bytes. -/
  | size
  | boolean
  | string
  /-- A record, by name. -/
  | record (name : String)
  deriving DecidableEq, Repr

/-- What stands where a setting should be. -/
inductive Finding
  /-- An integer of at most 64 bits. -/
  | integer (value : Int)
  /-- An integer of 65 to 128 bits. -/
  | wideInteger (value : Int)
  | float (value : Binary64)
  | boolean (value : Bool)
  | string (text : String)
  | sequence
  | map
  deriving DecidableEq, Repr

/-- Why a value does not fit its setting. -/
inductive Misfit
  /-- A field that has to be there is not. -/
  | missing (field : String)
  /-- A word that is none of the known ones. -/
  | unknownVariant (word : String) (known : List String)
  /-- A value that cannot name one of several words. -/
  | noWord
  /-- A table that names no word. -/
  | emptyChoice
  /-- A table that names several words. -/
  | severalChoices
  /-- A table under a word that should be empty. -/
  | expectedEmptyTable
  /-- An array under a word that should be empty. -/
  | expectedEmptyArray
  /-- A value of another kind under a word. -/
  | expectedTable (kind : String)
  | wrongType (finding : Finding) (expected : Expectation)
  /-- A number that the setting's range does not hold. -/
  | outOfRange (value : Int) (expected : Expectation)
  /-- A record written as an array that is too short. -/
  | tooShort (length : Nat) (name : String) (fields : Nat)
  /-- A number that no setting can hold. -/
  | excess (number : Toml.Excess)
  deriving DecidableEq, Repr

/-- A value that does not fit, by the byte offset of what is wrong with it. -/
structure SettingFault where
  offset : Nat
  misfit : Misfit
  deriving DecidableEq, Repr

/-- The wording of an expectation. -/
def Expectation.text : Expectation → String
  | unsigned bits => s!"u{bits}"
  | size => "usize"
  | boolean => "a boolean"
  | string => "a string"
  | record name => s!"struct {name}"

/-- The wording of a finding. -/
def Finding.text : Finding → String
  | integer value => s!"integer `{value}`"
  | wideInteger value =>
    let width := if value < 0x80000000000000000000000000000000 then "i128" else "u128"
    s!"integer `{value}` as {width}"
  | float value => s!"floating point `{value.textWithPoint}`"
  | boolean value => s!"boolean `{value}`"
  | string text => "string " ++ Text.literal text
  | sequence => "sequence"
  | map => "map"

/-- Words to choose from, each between backquotes. -/
def choiceText (words : List String) : String :=
  match words.map fun word => s!"`{word}`" with
  | [only] => only
  | [first, second] => s!"{first} or {second}"
  | several => "one of " ++ ", ".intercalate several

/-- The wording of a misfit. -/
def Misfit.text : Misfit → String
  | missing field => s!"missing field `{field}`"
  | unknownVariant word known => s!"unknown variant `{word}`, expected {choiceText known}"
  | noWord => "wanted string or table"
  | emptyChoice => "wanted exactly 1 element, found 0 elements"
  | severalChoices => "wanted exactly 1 element, more than 1 element"
  | expectedEmptyTable => "expected empty table"
  | expectedEmptyArray => "expected empty array"
  | expectedTable kind => s!"expected table, found {kind}"
  | wrongType finding expected => s!"invalid type: {finding.text}, expected {expected.text}"
  | outOfRange value expected => s!"invalid value: integer `{value}`, expected {expected.text}"
  | tooShort length name fields =>
    s!"invalid length {length}, expected struct {name} with {fields} elements"
  | excess number => number.text

end TuningBridge
