import TuningBridge.Hex
import TuningBridge.Text.Hidden

/-!
# Text literals

Text in double quotes, as messages show it: quotes, backslashes and what shows nothing are escaped.
-/

namespace TuningBridge.Text

/-- A character by its code point. -/
private def byCodePoint (char : Char) : String :=
  "\\u\x7b" ++ (Hex.natural char.toNat).map Char.toLower ++ "\x7d"

/-- A character as it stands between double quotes. -/
def escape (char : Char) : String :=
  match char with
  | '\t' => "\\t"
  | '\r' => "\\r"
  | '\n' => "\\n"
  | '"' => "\\\""
  | '\\' => "\\\\"
  | _ =>
    if char.toNat = 0 then "\\0"
    else if char.toNat < 0x20 || char.toNat = 0x7F || isHidden char then byCodePoint char
    else char.toString

/-- Text in double quotes. -/
def literal (text : String) : String :=
  "\"" ++ String.join (text.toList.map escape) ++ "\""

end TuningBridge.Text
