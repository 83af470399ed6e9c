/-!
# The shortest decimal of a binary number

A binary number `m * 2^q` of a format stands for an interval of reals, those that round to it.
`shortest` takes the decimals with the fewest digits in that interval, and of these the one
nearest to the number. All comparisons are exact, on natural numbers.
-/

namespace Switchboard
namespace Decimal

/-- The number `digits * 10 ^ exponent`. -/
structure Scientific where
  digits : Nat
  exponent : Int
deriving DecidableEq, Repr

/-- A positive binary number in quarters of its last place: the number is `4 * m` quarters, and
the reals that round to it lie from `low` to `high` quarters, the ends included iff `closed`. -/
structure Rounding where
  m : Nat
  low : Nat
  high : Nat
  closed : Bool
  /-- One quarter is `2 ^ exponent`. -/
  exponent : Int

namespace Rounding

/-- The interval of `m * 2 ^ q`; below it the format's places are half as wide iff `narrow`. -/
def of (m : Nat) (q : Int) (narrow : Bool) : Rounding where
  m := m
  low := if narrow then 4 * m - 1 else 4 * m - 2
  high := 4 * m + 2
  closed := m % 2 = 0
  exponent := q - 2

/-- The fraction `b ^ e`, as numerator and denominator. -/
def power (b : Nat) (e : Int) : Nat × Nat :=
  if 0 ≤ e then (b.pow e.toNat, 1) else (1, b.pow (-e).toNat)

/-- The factors `(a, b)` from quarters to units of `10 ^ e`: `u` quarters are `u * a / b` units. -/
def units (r : Rounding) (e : Int) : Nat × Nat :=
  let (up, down) := power 2 r.exponent
  let (above, below) := power 10 e
  (up * below, above * down)

/-- Whether `t` rounds to the number, where a quarter counts `a`. -/
def contains (r : Rounding) (a t : Nat) : Bool :=
  if r.closed then r.low * a ≤ t && t ≤ r.high * a else r.low * a < t && t < r.high * a

/-- Of the two multiples of `10 ^ e` around the number, the nearest that rounds to it; of two at
one distance the even one. -/
def onGrid? (r : Rounding) (e : Int) : Option Nat :=
  let (a, b) := r.units e
  let v := 4 * r.m * a
  let below := v / b
  let above := below + 1
  match r.contains a (below * b), r.contains a (above * b) with
  | true, false => some below
  | false, true => some above
  | true, true =>
    let twice := 2 * v
    let middle := (2 * below + 1) * b
    if twice < middle then some below
    else if middle < twice then some above
    else some (if below % 2 = 0 then below else above)
  | false, false => none

/-- The least `k` with the number below `10 ^ k`, looked for upwards from an estimate. -/
def magnitude (r : Rounding) : Int :=
  let bits : Int := Nat.log2 (4 * r.m) + r.exponent
  let guess : Int := bits * 30103 / 100000
  let tries := (List.range 4).map fun (i : Nat) => guess + i
  let isAbove (k : Int) : Bool :=
    let (a, b) := r.units k
    4 * r.m * a < b
  (tries.find? isAbove).getD (guess + 4)

end Rounding

/-- Without trailing zeros; the bound is the number of digits to look at. -/
def Scientific.strip : Nat → Scientific → Scientific
  | 0, s => s
  | n + 1, s =>
    if s.digits ≠ 0 ∧ s.digits % 10 = 0 then strip n ⟨s.digits / 10, s.exponent + 1⟩ else s

/-- The fewest digits that read back, at most 17; nearest to the number among those. -/
def shortest (r : Rounding) : Scientific :=
  let k := r.magnitude
  let found := (List.range 17).findSome? fun (i : Nat) =>
    let e := k - (i + 1)
    (r.onGrid? e).map fun x => Scientific.mk x e
  Scientific.strip 18 (found.getD ⟨4 * r.m, 0⟩)

end Decimal
end Switchboard
