import TuningBridge.Toml.Cursor
import TuningBridge.Toml.Value

/-!
# Numbers, dates and truth values

Unquoted values are runs of characters up to a blank, a line break, a comment or punctuation.
`Scalar.read?` says what such a run stands for, and refuses runs that stand for nothing.
-/

namespace TuningBridge.Toml.Scalar

/-- The number of a decimal or hexadecimal digit. -/
def digitValue? (char : Char) : Option Nat :=
  if '0' ≤ char ∧ char ≤ '9' then some (char.toNat - 48)
  else if 'a' ≤ char ∧ char ≤ 'f' then some (char.toNat - 87)
  else if 'A' ≤ char ∧ char ≤ 'F' then some (char.toNat - 55)
  else none

/-- The digits of a run below a base, in which single underscores may stand between digits. -/
def digits? (base : Nat) : List Char → Option (List Nat)
  | [] => none
  | [char] => do
    let digit ← digitValue? char
    if digit < base then some [digit] else none
  | char :: '_' :: rest => do
    let digit ← digitValue? char
    if digit < base then (digit :: ·) <$> digits? base rest else none
  | char :: rest => do
    let digit ← digitValue? char
    if digit < base then (digit :: ·) <$> digits? base rest else none

/-- The number that digits of a base write. -/
def number (base : Nat) (digits : List Nat) : Nat :=
  digits.foldl (fun value digit => value * base + digit) 0

/-- Split off a sign; the flag says whether it is negative. -/
def splitSign : List Char → Bool × List Char
  | '-' :: rest => (true, rest)
  | '+' :: rest => (false, rest)
  | chars => (false, chars)

/-- A number with its sign. -/
def signed (negative : Bool) (value : Nat) : Int :=
  if negative then -(value : Int) else value

/-- The digits of a decimal number without a leading zero. -/
def decimal? (chars : List Char) : Option (List Nat) := do
  let digits ← digits? 10 chars
  if digits.length = 1 ∨ digits.head? ≠ some 0 then some digits else none

/-- An integer: decimal with a sign, or hexadecimal, octal or binary without one. -/
def integer? : List Char → Option Int
  | '0' :: 'x' :: rest => (digits? 16 rest).map fun digits => number 16 digits
  | '0' :: 'o' :: rest => (digits? 8 rest).map fun digits => number 8 digits
  | '0' :: 'b' :: rest => (digits? 2 rest).map fun digits => number 2 digits
  | chars => do
    let (negative, rest) := splitSign chars
    some (signed negative (number 10 (← decimal? rest)))

/-- Whether underscores stand only between digits of some base; `behindDigit` says whether there is
a digit in front of the run. -/
def separatesDigits : (behindDigit : Bool) → List Char → Bool
  | _, [] => true
  | behindDigit, '_' :: rest =>
    behindDigit && (rest.head?.any fun char => (digitValue? char).isSome) &&
      separatesDigits false rest
  | _, char :: rest => separatesDigits (digitValue? char).isSome rest

/-- Whether a run passes for an integer: it names a base, or it has an underscore behind its first
digits and neither a fraction nor an exponent.  What follows the underscore need not be a number. -/
def passesForInteger (chars : List Char) : Bool :=
  let (_, rest) := splitSign chars
  let tail := rest.dropWhile Char.isDigit
  ["0x".toList, "0o".toList, "0b".toList].contains chars ||
    (tail.head? = some '_' && rest.head? ≠ some '0' &&
      tail.all (fun char => char ≠ '.' && char ≠ 'e' && char ≠ 'E') && separatesDigits false rest)

/-- The double nearest to `digits * 10 ^ exponent`, with a sign. -/
def nearest (negative : Bool) (digits : Nat) (exponent : Int) : Real :=
  let size := ((toString digits).length : Int) + exponent
  let signed (value : Float) : Real := .finite (.ofFloat (if negative then -value else value))
  if digits = 0 ∨ size < -400 then signed 0
  else if 400 < size then .overflow
  else
    let value :=
      if 0 ≤ exponent then Float.ofScientific digits false exponent.toNat
      else Float.ofScientific digits true (-exponent).toNat
    if (Binary64.ofFloat value).isFinite then signed value else .overflow

/-- An exponent behind its letter. -/
def exponent? (chars : List Char) : Option Int := do
  let (negative, rest) := splitSign chars
  some (signed negative (number 10 (← digits? 10 rest)))

/-- A number with a fraction, an exponent or both, or one of the special numbers. -/
def float? (chars : List Char) : Option Real := do
  let (negative, rest) := splitSign chars
  if rest = "inf".toList then
    return .finite (.ofFloat (if negative then -1 / 0 else 1 / 0))
  if rest = "nan".toList then
    return .finite ⟨0x7FF8000000000000⟩
  let isExponentLetter (char : Char) : Bool := char = 'e' || char = 'E'
  let mantissa := rest.takeWhile fun char => !isExponentLetter char
  let exponentPart := rest.drop mantissa.length
  let exponent ← if exponentPart.isEmpty then some 0 else exponent? (exponentPart.drop 1)
  let whole := mantissa.takeWhile (· ≠ '.')
  let fractionPart := mantissa.drop whole.length
  if exponentPart.isEmpty ∧ fractionPart.isEmpty then failure
  let wholeDigits ← decimal? whole
  let fractionDigits ← if fractionPart.isEmpty then some [] else digits? 10 (fractionPart.drop 1)
  return nearest negative (number 10 (wholeDigits ++ fractionDigits))
    (exponent - fractionDigits.length)

/-- The number written by exactly as many decimal digits as there are characters. -/
def plain? (chars : List Char) : Option Nat :=
  if chars.isEmpty || !chars.all Char.isDigit then none
  else (digits? 10 chars).map (number 10)

/-- The number of days of a month, if there is such a month. -/
def monthLength? (year month : Nat) : Option Nat :=
  if month = 2 then
    some (if year % 4 = 0 ∧ (year % 100 ≠ 0 ∨ year % 400 = 0) then 29 else 28)
  else if [4, 6, 9, 11].contains month then some 30
  else if 1 ≤ month ∧ month ≤ 12 then some 31
  else none

/-- Whether ten characters are a day of the calendar. -/
def isDate : List Char → Bool
  | [y1, y2, y3, y4, '-', m1, m2, '-', d1, d2] =>
    ((do
      let year ← plain? [y1, y2, y3, y4]
      let day ← plain? [d1, d2]
      let length ← monthLength? year (← plain? [m1, m2])
      some (decide (1 ≤ day ∧ day ≤ length))) : Option Bool).getD false
  | _ => false

/-- Whether two pairs of digits are an hour and a minute. -/
def isHourMinute (h1 h2 m1 m2 : Char) : Bool :=
  (plain? [h1, h2]).any (· ≤ 23) && (plain? [m1, m2]).any (· ≤ 59)

/-- Whether characters are the difference of a clock to universal time. -/
def isClockOffset : List Char → Bool
  | [letter] => letter = 'Z' || letter = 'z'
  | [sign, h1, h2, ':', m1, m2] => (sign = '+' || sign = '-') && isHourMinute h1 h2 m1 m2
  | _ => false

/-- What is left behind the seconds of a time of day and their fraction. -/
def afterSeconds? : List Char → Option (List Char)
  | s1 :: s2 :: rest =>
    if (plain? [s1, s2]).any (· ≤ 60) then
      match rest with
      | '.' :: fraction =>
        let digits := fraction.takeWhile Char.isDigit
        if digits.isEmpty then none else some (fraction.drop digits.length)
      | _ => some rest
    else none
  | _ => none

/-- What is left behind a time of day, whose seconds may be left out. -/
def time? : List Char → Option (List Char)
  | h1 :: h2 :: ':' :: m1 :: m2 :: rest =>
    if isHourMinute h1 h2 m1 m2 then
      match rest with
      | ':' :: seconds => afterSeconds? seconds
      | _ => some rest
    else none
  | _ => none

/-- Whether characters are a date, a time, or a date and a time with or without an offset. -/
def isDatetime (chars : List Char) : Bool :=
  if isDate (chars.take 10) then
    match chars.drop 10 with
    | [] => true
    | separator :: clock =>
      (separator = 'T' || separator = 't' || separator = ' ') &&
        (time? clock).any fun rest => rest.isEmpty || isClockOffset rest
  else (time? chars).any List.isEmpty

/-- What an unquoted run stands for. -/
def read? (chars : List Char) : Option Value :=
  if chars = "true".toList then some (.boolean true)
  else if chars = "false".toList then some (.boolean false)
  else
    match integer? chars with
    | some value => some (.integer value)
    | none =>
      match float? chars with
      | some value => some (.float value)
      | none =>
        if isDatetime chars then some .datetime
        else if passesForInteger chars then some .unreadable
        else none

/-- Whether a character ends an unquoted value: a blank, a line break, a comment or punctuation. -/
def endsScalar (char : Char) : Bool :=
  [' ', '\t', '\n', '\r', '#', '=', ',', '[', ']', Char.ofNat 0x7B, Char.ofNat 0x7D].contains char

/-- Take an unquoted value.  A blank between a date and a time belongs to the value. -/
def scan : Scan Value := do
  let run ← Scan.takeWhile (!endsScalar ·)
  let rest := (← get).rest
  let run ←
    match rest with
    | ' ' :: char :: _ =>
      if isDate run && char.isDigit then
        discard Scan.next
        return ← (read? (run ++ ' ' :: (← Scan.takeWhile (!endsScalar ·))) : Option Value)
      else pure run
    | _ => pure run
  (read? run : Option Value)

end TuningBridge.Toml.Scalar
