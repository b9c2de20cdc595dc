import TuningBridge.Toml.Quoted
import TuningBridge.Toml.Scalar
import TuningBridge.Toml.Table

/-!
# Settings documents

A document is a sequence of lines: a key with a value, the header of a table, or nothing, each with
a comment or without.  `Document.read?` puts its tables together; a text that is no document gives
`none`.
-/

namespace TuningBridge.Toml

/-- The deepest nesting of arrays and inline tables, and the most parts of a key. -/
def maxDepth : Nat := 80

namespace Document

/-- Skip blanks. -/
def skipBlanks : Scan Unit := discard (Scan.takeWhile fun char => char = ' ' || char = '\t')

/-- Skip a comment, if there is one. -/
def skipComment : Scan Unit := do
  if (← Scan.peek?) = some '#' then discard (Scan.takeWhile Quoted.isPlain)

/-- Skip blanks, comments and line breaks. -/
def skipLines : Scan Unit :=
  Scan.iterate () fun _ => do
    skipBlanks
    skipComment
    if ← Quoted.newline? then return .inl () else return .inr ()

/-- Whether a character may stand in a key without quotes. -/
def isKeyChar (char : Char) : Bool := char.isAlphanum || char = '_' || char = '-'

/-- One part of a key. -/
def keyPart : Scan Key := do
  let offset ← Scan.offset
  match ← Scan.peek? with
  | some '"' => return ⟨← Quoted.oneLine '"', offset⟩
  | some '\'' => return ⟨← Quoted.oneLine '\'', offset⟩
  | _ =>
    let chars ← Scan.takeWhile isKeyChar
    if chars.isEmpty then failure else return ⟨String.ofList chars, offset⟩

/-- A key of parts with points between them, split into the parts in front and the last one. -/
def key : Scan (List Key × Key) := do
  let first ← keyPart
  Scan.iterate (([], first) : List Key × Key) fun (path, last) => do
    let before ← get
    skipBlanks
    if ← Scan.skip? ['.'] then
      skipBlanks
      return .inl (path ++ [last], ← keyPart)
    else
      set before
      if path.length < maxDepth then return .inr (path, last) else failure

/-- The items of an array behind its opening bracket. -/
def items (value : Scan (Nat × Value)) : Scan (List (Nat × Value)) := do
  skipLines
  if ← Scan.skip? [']'] then return []
  let found ← Scan.iterate (#[] : Array (Nat × Value)) fun found => do
    let found := found.push (← value)
    skipLines
    if ← Scan.skip? [','] then
      skipLines
      if ← Scan.skip? [']'] then return .inr found else return .inl found
    else
      Scan.char ']'
      return .inr found
  return found.toList

/-- A key, an equals sign and a value; `skip` goes over what may stand around the equals sign. -/
def pair (skip : Scan Unit) (value : Scan (Nat × Value)) : Scan (List Key × Key × Nat × Value) := do
  let (path, last) ← key
  skip
  Scan.char '='
  skip
  return (path, last, ← value)

/-- The entries of an inline table behind its opening brace. -/
def inlineEntries (value : Scan (Nat × Value)) : Scan Entries := do
  skipLines
  if ← Scan.skip? [Char.ofNat 0x7D] then return []
  Scan.iterate ([] : Entries) fun entries => do
    let (path, last, value) ← pair skipLines value
    let entries ← (Entries.addValue path last value entries : Option Entries)
    skipLines
    if ← Scan.skip? [','] then
      skipLines
      if ← Scan.skip? [Char.ofNat 0x7D] then return .inr entries else return .inl entries
    else
      Scan.char (Char.ofNat 0x7D)
      return .inr entries

/-- A text or an unquoted value, and its offset. -/
def leaf : Scan (Nat × Value) := do
  let offset ← Scan.offset
  match ← Scan.peek? with
  | some '"' => return (offset, .string (← Quoted.scan '"'))
  | some '\'' => return (offset, .string (← Quoted.scan '\''))
  | _ => return (offset, ← Scalar.scan)

/-- A value and its offset, with arrays and inline tables nested at most to a depth. -/
def value : (depth : Nat) → Scan (Nat × Value)
  | 0 => leaf
  | depth + 1 => do
    let offset ← Scan.offset
    if ← Scan.skip? ['['] then
      return (offset, .array (← items (value depth)))
    else if ← Scan.skip? [Char.ofNat 0x7B] then
      return (offset, .table .inline (← inlineEntries (value depth)))
    else leaf

/-- The header of a table: its key, its offset, and whether it stands in double brackets. -/
def header : Scan (Bool × Nat × List Key × Key) := do
  let offset ← Scan.offset
  Scan.char '['
  let several ← Scan.skip? ['[']
  skipBlanks
  let (path, last) ← key
  skipBlanks
  Scan.char ']'
  if several then Scan.char ']'
  return (several, offset, path, last)

/-- What has been read: all entries, and the path of the table that values go into. -/
structure Progress where
  entries : Entries
  current : List Key

/-- Take one line without its line break. -/
def line (progress : Progress) : Scan Progress := do
  skipBlanks
  let after ←
    match ← Scan.peek? with
    | some '[' =>
      let (several, offset, path, last) ← header
      let entries ←
        ((if several then progress.entries.addToTables path last offset
          else progress.entries.addTable path last offset) : Option Entries)
      pure ⟨entries, path ++ [last]⟩
    | some '#' | some '\n' | some '\r' | none => pure progress
    | some _ =>
      let (path, last, value) ← pair skipBlanks (value maxDepth)
      let entries ←
        (progress.entries.addValueUnder progress.current path last value : Option Entries)
      pure { progress with entries }
  skipBlanks
  skipComment
  return after

/-- All lines of a document; a byte order mark may stand in front. -/
def lines : Scan Entries := do
  discard (Scan.skip? [Char.ofNat 0xFEFF])
  Scan.iterate (⟨[], []⟩ : Progress) fun progress => do
    let progress ← line progress
    if ← Scan.atEnd then return .inr progress.entries
    else if ← Quoted.newline? then return .inl progress
    else failure

/-- The entries of a document. -/
def read? (text : String) : Option Entries := Scan.run? lines text

end Document

end TuningBridge.Toml
