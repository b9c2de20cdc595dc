import TuningBridge.Hex

/-!
# Internet addresses

The addresses that the service listens on, in their textual forms.  Parsing takes the whole text.
-/

namespace TuningBridge

/-- An internet address. -/
inductive IpAddress
  /-- Four bytes. -/
  | v4 (a b c d : UInt8)
  /-- Eight groups of sixteen bits. -/
  | v6 (groups : List UInt16)
  deriving DecidableEq, Repr

namespace IpAddress

/-- The number of a hexadecimal digit. -/
def hexValue? (char : Char) : Option Nat :=
  if '0' ≤ char ∧ char ≤ '9' then some (char.toNat - 48)
  else if 'a' ≤ char ∧ char ≤ 'f' then some (char.toNat - 87)
  else if 'A' ≤ char ∧ char ≤ 'F' then some (char.toNat - 55)
  else none

/-- A decimal number of up to three digits for a byte, without a leading zero. -/
def octet? (chars : List Char) : Option (UInt8 × List Char) :=
  let digits := chars.takeWhile Char.isDigit
  let value := digits.foldl (fun value digit => value * 10 + (digit.toNat - 48)) 0
  if digits.isEmpty || 3 < digits.length || 255 < value ||
      (1 < digits.length && digits.head? = some '0')
  then none
  else some (UInt8.ofNat value, chars.drop digits.length)

/-- A number for a byte behind a point. -/
def dottedOctet? : List Char → Option (UInt8 × List Char)
  | '.' :: rest => octet? rest
  | _ => none

/-- Four numbers with points between them. -/
def quad? (chars : List Char) : Option (IpAddress × List Char) := do
  let (a, chars) ← octet? chars
  let (b, chars) ← dottedOctet? chars
  let (c, chars) ← dottedOctet? chars
  let (d, chars) ← dottedOctet? chars
  some (.v4 a b c d, chars)

/-- The two groups of four bytes. -/
def groupsOfQuad : IpAddress → List UInt16
  | v4 a b c d => [a.toUInt16 * 256 + b.toUInt16, c.toUInt16 * 256 + d.toUInt16]
  | v6 groups => groups

/-- A group of up to four hexadecimal digits. -/
def group? (chars : List Char) : Option (UInt16 × List Char) :=
  let digits := chars.takeWhile fun char => (hexValue? char).isSome
  let value := digits.foldl (fun value digit => value * 16 + (hexValue? digit).getD 0) 0
  if digits.isEmpty || 4 < digits.length then none
  else some (UInt16.ofNat value, chars.drop digits.length)

/-- The text behind the colon in front of every group but the first. -/
def separated? (isFirst : Bool) (chars : List Char) : Option (List Char) :=
  if isFirst then some chars
  else
    match chars with
    | ':' :: rest => some rest
    | _ => none

/-- As many groups as there are, up to a number.  Four decimal numbers may stand for two groups and
end them; the flag says whether they do. -/
def groups : (left : Nat) → (isFirst : Bool) → List Char → List UInt16 × Bool × List Char
  | 0, _, chars => ([], false, chars)
  | left + 1, isFirst, chars =>
    let quad := if left = 0 then none else (separated? isFirst chars).bind quad?
    match quad with
    | some (address, rest) => (groupsOfQuad address, true, rest)
    | none =>
      match (separated? isFirst chars).bind group? with
      | some (group, rest) =>
        let (others, endsInQuad, rest) := groups left false rest
        (group :: others, endsInQuad, rest)
      | none => ([], false, chars)

/-- Eight groups, of which a run of zeros may be left out once. -/
def parseV6? (chars : List Char) : Option (IpAddress × List Char) :=
  let (front, endsInQuad, rest) := groups 8 true chars
  if front.length = 8 then some (.v6 front, rest)
  else if endsInQuad then none
  else
    match rest with
    | ':' :: ':' :: rest =>
      let (back, _, rest) := groups (7 - front.length) true rest
      let zeros := List.replicate (8 - front.length - back.length) 0
      some (.v6 (front ++ zeros ++ back), rest)
    | _ => none

/-- The address that a text writes. -/
def parse? (text : String) : Option IpAddress :=
  match (quad? text.toList).orElse fun _ => parseV6? text.toList with
  | some (address, []) => some address
  | _ => none

/-- The text of four bytes. -/
def quadText (a b c d : UInt8) : String := s!"{a}.{b}.{c}.{d}"

/-- The start and the length of the first longest run of zeros. -/
def longestZeros (groups : List UInt16) : Nat × Nat :=
  let runs := (List.range groups.length).map fun start =>
    (start, ((groups.drop start).takeWhile (· = 0)).length)
  runs.foldl (fun best run => if best.2 < run.2 then run else best) (0, 0)

/-- Groups in hexadecimal with colons between them. -/
def groupText (groups : List UInt16) : String :=
  ":".intercalate (groups.map fun group => (Hex.natural group.toNat).map Char.toLower)

/-- The text of an address: the longest run of two or more zero groups is left out, and an address
that stands for four bytes shows them. -/
def text : IpAddress → String
  | v4 a b c d => quadText a b c d
  | v6 [0, 0, 0, 0, 0, 0xFFFF, high, low] =>
    "::ffff:" ++ quadText (high / 256).toUInt8 high.toUInt8 (low / 256).toUInt8 low.toUInt8
  | v6 groups =>
    let (start, length) := longestZeros groups
    if 1 < length then
      groupText (groups.take start) ++ "::" ++ groupText (groups.drop (start + length))
    else groupText groups

/-- The text of an address and a port. -/
def socketText (address : IpAddress) (port : UInt16) : String :=
  match address with
  | v4 .. => s!"{address.text}:{port}"
  | v6 _ => s!"[{address.text}]:{port}"

end IpAddress

end TuningBridge
