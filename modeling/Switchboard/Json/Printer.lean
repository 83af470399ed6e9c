import Switchboard.Json.Number
import Switchboard.Text.Utf8

/-!
# Writing JSON

`Json.writeOnto v rest` puts the compact text of `v` in front of the bytes `rest`: no blanks, the
members of an object in their order. In a string `"` and `\` are escaped, and so are the control
characters: `\b`, `\f`, `\n`, `\r`, `\t`, and `\u00xx` for the others. All other bytes stay as they
are.
-/

namespace Switchboard
namespace Json

/-- A hexadecimal digit, in lower case. -/
def hexDigit (n : UInt8) : UInt8 :=
  if n < 10 then 48 + n else 87 + n

/-- Puts a byte of a string in front of `rest`, escaped if need be. -/
def escapeOnto (b : UInt8) (rest : List UInt8) : List UInt8 :=
  match Char.ofUInt8 b with
  | '"' => 92 :: 34 :: rest
  | '\\' => 92 :: 92 :: rest
  | '\x08' => 92 :: 98 :: rest
  | '\x0c' => 92 :: 102 :: rest
  | '\n' => 92 :: 110 :: rest
  | '\r' => 92 :: 114 :: rest
  | '\t' => 92 :: 116 :: rest
  | _ => if b < 32 then 92 :: 117 :: 48 :: 48 :: hexDigit (b / 16) :: hexDigit (b % 16) :: rest
    else b :: rest

/-- A string between its quotes. -/
def writeString (s : String) (rest : List UInt8) : List UInt8 :=
  34 :: (Text.bytes s).foldr escapeOnto (34 :: rest)

/-- An integer in decimal. -/
def writeInt (n : Int) (rest : List UInt8) : List UInt8 :=
  if n < 0 then 45 :: (Text.ascii (Nat.toDigits 10 n.natAbs) ++ rest)
  else Text.ascii (Nat.toDigits 10 n.natAbs) ++ rest

mutual

/-- The compact text of a value, in front of `rest`. -/
def writeOnto : Json → List UInt8 → List UInt8
  | .null, rest => Text.ascii ['n', 'u', 'l', 'l'] ++ rest
  | .bool true, rest => Text.ascii ['t', 'r', 'u', 'e'] ++ rest
  | .bool false, rest => Text.ascii ['f', 'a', 'l', 's', 'e'] ++ rest
  | .int n, rest => writeInt n rest
  | .float d, rest => Text.ascii d.chars ++ rest
  | .str s, rest => writeString s rest
  | .arr [], rest => 91 :: 93 :: rest
  | .arr (v :: vs), rest => 91 :: writeOnto v (writeItems vs (93 :: rest))
  | .obj [], rest => 123 :: 125 :: rest
  | .obj ((k, v) :: ms), rest =>
    123 :: writeString k (58 :: writeOnto v (writeMembers ms (125 :: rest)))

/-- Further items, each behind a comma. -/
def writeItems : List Json → List UInt8 → List UInt8
  | [], rest => rest
  | v :: vs, rest => 44 :: writeOnto v (writeItems vs rest)

/-- Further members, each behind a comma. -/
def writeMembers : List (String × Json) → List UInt8 → List UInt8
  | [], rest => rest
  | (k, v) :: ms, rest => 44 :: writeString k (58 :: writeOnto v (writeMembers ms rest))

end

/-- The compact text of a value, as bytes. -/
def bytes (v : Json) : List UInt8 :=
  v.writeOnto []

/-- The compact text of a value. -/
def text (v : Json) : String :=
  (Text.ofBytes? v.bytes).getD ""

end Json
end Switchboard
