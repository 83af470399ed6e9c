import Switchboard.Json.Value
import Switchboard.Decimal.Shortest

/-!
# Numbers in JSON texts

An integer is written in decimal. A double is written with the fewest digits that read back and
always shows that it is one: `Double.chars` puts them into the form that `Layout.json` describes.

Reading goes through `NumberText`, which takes the characters of a number one by one. As many
digits as fit into 64 bits count; after them digits before the point raise the exponent, and
digits behind it are dropped. `NumberText.value?` scales these digits by a power of ten.
-/

namespace Switchboard

/-- How a double is laid out. -/
structure Layout where
  /-- The exponents that are written without an exponent mark, from the first to the second. -/
  positional : Int × Int
  /-- The mark before the exponent. -/
  mark : Char
  /-- Whether a positive exponent shows its sign. -/
  plus : Bool
  /-- What follows an integral number without exponent mark. -/
  integral : List Char

/-- Positional from `0.00001` to `1000000000000000.0`; beyond that `1e-6` and `1e+16`. -/
def Layout.json : Layout := ⟨(-5, 15), 'e', true, ['.', '0']⟩

/-- The text of `s`, which is not zero, under a layout. -/
def Layout.chars (l : Layout) (s : Decimal.Scientific) : List Char :=
  let ds := Nat.toDigits 10 s.digits
  let lead := s.exponent + ds.length - 1
  if l.positional.1 ≤ lead ∧ lead ≤ l.positional.2 then
    if lead < 0 then '0' :: '.' :: List.replicate (-lead - 1).toNat '0' ++ ds
    else if s.exponent ≥ 0 then ds ++ List.replicate s.exponent.toNat '0' ++ l.integral
    else ds.take (lead + 1).toNat ++ '.' :: ds.drop (lead + 1).toNat
  else
    let fraction := match ds.drop 1 with
      | [] => []
      | rest => '.' :: rest
    let sign := if lead < 0 then ['-'] else if l.plus then ['+'] else []
    ds.take 1 ++ fraction ++ l.mark :: sign ++ Nat.toDigits 10 lead.natAbs

namespace Double

/-- The sign, and the places `m * 2 ^ q` of a finite double, with whether the places below `m` are
narrower. -/
def places (d : Double) : Bool × Nat × Int × Bool :=
  let bits := d.bits.toNat
  let fraction : Nat := bits % (1 <<< 52)
  let field : Nat := (bits >>> 52) % (1 <<< 11)
  let negative := bits >>> 63 = 1
  if field = 0 then (negative, fraction, -1074, false)
  else (negative, fraction + (1 <<< 52), (field : Int) - 1075, fraction = 0 ∧ 1 < field)

/-- The text of a finite double; zero keeps its sign. -/
def chars (d : Double) : List Char :=
  let (negative, m, q, narrow) := d.places
  let body :=
    if m = 0 then ['0', '.', '0']
    else Layout.json.chars (Decimal.shortest (.of m q narrow))
  if negative then '-' :: body else body

def text (d : Double) : String :=
  String.ofList d.chars

end Double

/-! ### Reading -/

/-- How far the text of a number has come. -/
inductive NumberPart
  /-- After the minus sign: a digit must follow. -/
  | sign
  /-- After a leading zero: no digit may follow. -/
  | zero
  | integer
  /-- After the point: a digit must follow. -/
  | point
  | fraction
  /-- After the exponent mark: a sign or a digit must follow. -/
  | mark
  /-- After the sign of the exponent: a digit must follow. -/
  | markSign
  | exponent
deriving DecidableEq

/-- What has been read of a number: `significand * 10 ^ scale`, to be scaled by the exponent. -/
structure NumberText where
  part : NumberPart
  negative : Bool := false
  significand : Nat := 0
  scale : Int := 0
  /-- Digits before the point are no longer taken. -/
  integerFull : Bool := false
  /-- Digits behind the point are no longer taken. -/
  fractionFull : Bool := false
  exponentNegative : Bool := false
  exponent : Nat := 0

namespace NumberText

/-- The largest significand is the largest number of 64 bits. -/
def maxSignificand : Nat := UInt64.size - 1

/-- Exponents are not counted beyond this; the number is then zero or too large. -/
def maxExponent : Nat := 1000000000

/-- A digit before the point. -/
def integerDigit (t : NumberText) (d : Nat) : NumberText :=
  if t.integerFull ∨ maxSignificand < t.significand * 10 + d then
    { t with part := .integer, integerFull := true, scale := t.scale + 1 }
  else { t with part := .integer, significand := t.significand * 10 + d }

/-- A digit behind the point. -/
def fractionDigit (t : NumberText) (d : Nat) : NumberText :=
  if t.fractionFull ∨ maxSignificand < t.significand * 10 + d then
    { t with part := .fraction, fractionFull := true }
  else
    { t with part := .fraction, significand := t.significand * 10 + d, scale := t.scale - 1 }

/-- A digit of the exponent. -/
def exponentDigit (t : NumberText) (d : Nat) : NumberText :=
  { t with
    part := .exponent
    exponent := if maxExponent ≤ t.exponent then t.exponent else t.exponent * 10 + d }

/-- What the next character of a number is. -/
inductive Step
  /-- It belongs to the number. -/
  | more (t : NumberText)
  /-- The number ended before it. -/
  | ended
  /-- The number is broken here. -/
  | broken

/-- Takes a character. -/
def push (t : NumberText) (c : Char) : Step :=
  let digit? : Option Nat := if c.isDigit then some (c.toNat - 48) else none
  match t.part, digit? with
  | .sign, some d => .more { t with part := if d = 0 then .zero else .integer, significand := d }
  | .sign, none => .broken
  | .zero, some _ => .broken
  | .integer, some d => .more (t.integerDigit d)
  | .zero, none | .integer, none =>
    if c = '.' then .more { t with part := .point }
    else if c = 'e' ∨ c = 'E' then .more { t with part := .mark }
    else .ended
  | .point, some d | .fraction, some d => .more (t.fractionDigit d)
  | .point, none => .broken
  | .fraction, none => if c = 'e' ∨ c = 'E' then .more { t with part := .mark } else .ended
  | .mark, some d | .markSign, some d | .exponent, some d => .more (t.exponentDigit d)
  | .mark, none =>
    if c = '+' then .more { t with part := .markSign }
    else if c = '-' then .more { t with part := .markSign, exponentNegative := true }
    else .broken
  | .markSign, none => .broken
  | .exponent, none => .ended

/-- Whether the number may end here. -/
def complete (t : NumberText) : Bool :=
  match t.part with
  | .zero | .integer | .fraction | .exponent => true
  | .sign | .point | .mark | .markSign => false

/-- Ten to the power `k`, rounded to a double. -/
def powerOfTen (k : Nat) : Float :=
  Float.ofScientific 1 false k

/-- `x / 10 ^ k`, in steps of at most 308 powers; three steps take every significand to zero. -/
def scaleDown : Nat → Float → Nat → Float
  | 0, x, _ => x
  | n + 1, x, k =>
    if k ≤ 308 then x / powerOfTen k
    else if x == 0 then x
    else scaleDown n (x / powerOfTen 308) (k - 308)

/-- The significand as a double, multiplied or divided by a power of ten; `none` if that is too
large for a double. -/
def scaled? (significand : Nat) (e : Int) : Option Float :=
  let x := significand.toUInt64.toFloat
  if e < 0 then some (scaleDown 4 x e.natAbs)
  else if e ≤ 308 then
    let y := x * powerOfTen e.toNat
    if y.isInf then none else some y
  else if x == 0 then some x else none

/-- The number that was read; `none` if it is too large for a double. -/
def value? (t : NumberText) : Option Json :=
  let plain := (t.part = .zero ∨ t.part = .integer) ∧ t.integerFull = false ∧ t.scale = 0
  if plain ∧ t.negative = false then some (.int t.significand)
  else if plain ∧ 0 < t.significand ∧ t.significand ≤ 1 <<< 63 then some (.int (-t.significand))
  else
    let e := t.scale + (if t.exponentNegative then -(t.exponent : Int) else t.exponent)
    (scaled? t.significand e).map fun x =>
      .float (.ofFloat (if t.negative then -x else x))

end NumberText
end Switchboard
