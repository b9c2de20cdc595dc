import TuningBridge.Toml.Cursor

/-!
# Quoted text

The four forms of quoted text: with or without escapes, on one line or on several.
-/

namespace TuningBridge.Toml.Quoted

/-- Whether a character may stand in a comment or in quotes: no control character but the tab. -/
def isPlain (char : Char) : Bool :=
  char = '\t' || (0x20 ≤ char.toNat && char.toNat ≠ 0x7F)

/-- The character that a number of hexadecimal digits stand for. -/
def codePoint (count : Nat) : Scan Char := do
  let digits ← (List.range count).mapM fun _ => Scan.satisfy fun char =>
    char.isDigit || ('a' ≤ char && char ≤ 'f') || ('A' ≤ char && char ≤ 'F')
  let value := digits.foldl (fun value char =>
    value * 16 + (if char.isDigit then char.toNat - 48 else (char.toNat % 32) + 9)) 0
  if value < 0xD800 ∨ (0xDFFF < value ∧ value ≤ 0x10FFFF) then return Char.ofNat value else failure

/-- The character that an escape stands for, behind its backslash. -/
def escaped : Scan Char := do
  match ← Scan.next with
  | 'b' => return Char.ofNat 0x08
  | 't' => return '\t'
  | 'n' => return '\n'
  | 'f' => return Char.ofNat 0x0C
  | 'r' => return '\r'
  | 'e' => return Char.ofNat 0x1B
  | '"' => return '"'
  | '\\' => return '\\'
  | 'x' => codePoint 2
  | 'u' => codePoint 4
  | 'U' => codePoint 8
  | _ => failure

/-- Take a line break, if there is one: a line feed, with a carriage return in front of it or
without. -/
def lineBreak? : Scan (Option (List Char)) := do
  if ← Scan.skip? ['\n'] then return some ['\n']
  else if ← Scan.skip? ['\r', '\n'] then return some ['\r', '\n']
  else return none

/-- Take a line break, and say whether there was one. -/
def newline? : Scan Bool := return (← lineBreak?).isSome

/-- One line up to a closing quote; in double quotes backslashes escape. -/
def oneLine (quote : Char) : Scan String := do
  Scan.char quote
  let chars ← Scan.iterate (#[] : Array Char) fun chars => do
    let char ← Scan.next
    if char = quote then return .inr chars
    else if char = '\\' && quote = '"' then return .inl (chars.push (← escaped))
    else if isPlain char then return .inl (chars.push char)
    else failure
  return String.ofList chars.toList

/-- Skip blanks and line breaks after a backslash at the end of a line. -/
def skipFold : Scan Unit := do
  discard (Scan.takeWhile fun char => char = ' ' || char = '\t')
  unless ← newline? do failure
  Scan.iterate () fun _ => do
    let blanks ← Scan.takeWhile fun char => char = ' ' || char = '\t'
    if ← newline? then return .inl ()
    else if blanks.isEmpty then return .inr ()
    else return .inl ()

/-- The number of quotes in front of the cursor. -/
def quotesAhead (quote : Char) : Scan Nat :=
  return ((← get).rest.takeWhile (· == quote)).length

/-- Several lines up to three closing quotes, in front of which up to two more may belong to the
text.  A line break behind the opening quotes does not count; any other stays as it is written. -/
def manyLines (quote : Char) : Scan String := do
  unless ← Scan.skip? [quote, quote, quote] do failure
  discard newline?
  let chars ← Scan.iterate (#[] : Array Char) fun chars => do
    let quotes ← quotesAhead quote
    if 3 ≤ quotes then
      let inside := min (quotes - 3) 2
      discard (Scan.skip? (List.replicate (inside + 3) quote))
      return .inr (chars ++ List.replicate inside quote)
    else
      match ← lineBreak? with
      | some lineBreak => return .inl (chars ++ lineBreak)
      | none =>
        let char ← Scan.next
        if char = '\\' && quote = '"' then
          match ← Scan.peek? with
          | some ' ' | some '\t' | some '\n' | some '\r' =>
            skipFold
            return .inl chars
          | _ => return .inl (chars.push (← escaped))
        else if isPlain char then return .inl (chars.push char)
        else failure
  return String.ofList chars.toList

/-- Quoted text in any form. -/
def scan (quote : Char) : Scan String := do
  if ← Scan.startsWith [quote, quote, quote] then manyLines quote else oneLine quote

end TuningBridge.Toml.Quoted
