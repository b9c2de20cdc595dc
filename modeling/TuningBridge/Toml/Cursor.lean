import TuningBridge.Text.Position

/-!
# Scanning text

A `Scan` reads values off the front of a text and may fail.  The cursor knows the text that is left
and the number of bytes in front of it.
-/

namespace TuningBridge.Toml

/-- A place in a text. -/
structure Cursor where
  /-- The characters that are left. -/
  rest : List Char
  /-- The number of bytes in front of them. -/
  offset : Nat

/-- Reading a value off the front of a text. -/
abbrev Scan := StateT Cursor Option

namespace Scan

/-- The byte offset of the next character. -/
def offset : Scan Nat := return (← get).offset

/-- The next character, if there is one. -/
def peek? : Scan (Option Char) := return (← get).rest.head?

/-- Whether the text ends here. -/
def atEnd : Scan Bool := return (← get).rest.isEmpty

/-- Take the next character. -/
def next : Scan Char := do
  match (← get).rest with
  | [] => failure
  | char :: rest =>
    modify fun cursor => ⟨rest, cursor.offset + char.utf8Size⟩
    return char

/-- Take the next character if it is of a class. -/
def satisfy (accepts : Char → Bool) : Scan Char := do
  let char ← next
  if accepts char then return char else failure

/-- Take a given character. -/
def char (expected : Char) : Scan Unit := discard (satisfy (· == expected))

/-- Whether the text goes on with the given characters. -/
def startsWith (expected : List Char) : Scan Bool := return expected.isPrefixOf (← get).rest

/-- Take the given characters if the text goes on with them. -/
def skip? (expected : List Char) : Scan Bool := do
  if ← startsWith expected then
    modify fun cursor => ⟨cursor.rest.drop expected.length, cursor.offset + Text.byteCount expected⟩
    return true
  else return false

/-- Take the longest run of characters of a class. -/
def takeWhile (accepts : Char → Bool) : Scan (List Char) := do
  let taken := (← get).rest.takeWhile accepts
  modify fun cursor => ⟨cursor.rest.drop taken.length, cursor.offset + Text.byteCount taken⟩
  return taken

/-- Repeat a step that either goes on or ends with a result, at most a number of times. -/
def repeatUpTo {α β : Type} (step : α → Scan (α ⊕ β)) : Nat → α → Scan β
  | 0, _ => failure
  | count + 1, state => do
    match ← step state with
    | .inl state => repeatUpTo step count state
    | .inr result => return result

/-- Repeat a step that takes at least one character whenever it goes on. -/
def iterate {α β : Type} (state : α) (step : α → Scan (α ⊕ β)) : Scan β := do
  repeatUpTo step ((← get).rest.length + 1) state

/-- Read a whole text. -/
def run? {α : Type} (scan : Scan α) (text : String) : Option α := do
  let (result, cursor) ← StateT.run scan ⟨text.toList, 0⟩
  if cursor.rest.isEmpty then some result else none

end Scan

end TuningBridge.Toml
