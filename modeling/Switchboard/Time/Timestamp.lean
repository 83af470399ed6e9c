import Switchboard.Time.Calendar

/-!
# Instants and spans of time

A `Timestamp` is an instant to the nanosecond. During a leap second the nanoseconds run from
`10^9` to `2 * 10^9 - 1`, over the second before it. `Timestamp.text` writes it in UTC, as in
`2020-01-02T03:04:05.123Z`, with the fewest of 0, 3, 6 and 9 digits of a fraction that show it
exactly.
-/

namespace Switchboard

/-- A span of time. -/
structure Duration where
  nanos : Nat
deriving DecidableEq, Repr

namespace Duration

def ofMillis (n : Nat) : Duration := ⟨n * 1000000⟩

/-- Whole milliseconds. -/
def millis (d : Duration) : Nat := d.nanos / 1000000

theorem millis_ofMillis (n : Nat) : (ofMillis n).millis = n := by
  simp only [millis, ofMillis]
  omega

end Duration

/-- An instant: seconds since 1 January 1970, UTC, and nanoseconds. -/
structure Timestamp where
  seconds : Int
  nanos : Nat
deriving DecidableEq, Repr

namespace Timestamp

/-- The instant that many nanoseconds after 1 January 1970. -/
def ofNanos (n : Int) : Timestamp :=
  ⟨n / 1000000000, (n % 1000000000).toNat⟩

def toNanos (t : Timestamp) : Int :=
  t.seconds * 1000000000 + t.nanos

/-- Before, in time. -/
def lt (a b : Timestamp) : Bool :=
  a.seconds < b.seconds || (a.seconds = b.seconds && a.nanos < b.nanos)

/-- How much time passed from `start` to `now`; none if the clock ran backwards. -/
def since (now start : Timestamp) : Duration :=
  ⟨(now.toNanos - start.toNanos).toNat⟩

/-! ### Writing -/

/-- At least so many digits, filled up with zeros. -/
def padded (width n : Nat) : List Char :=
  let ds := Nat.toDigits 10 n
  List.replicate (width - ds.length) '0' ++ ds

/-- The year: four digits, with a sign outside 0 to 9999. -/
def yearChars (y : Int) : List Char :=
  if y < 0 then '-' :: padded 4 y.natAbs
  else if y ≤ 9999 then padded 4 y.toNat
  else '+' :: padded 4 y.toNat

/-- The fraction of a second, with its point. -/
def fractionChars (nanos : Nat) : List Char :=
  if nanos = 0 then []
  else if nanos % 1000000 = 0 then '.' :: padded 3 (nanos / 1000000)
  else if nanos % 1000 = 0 then '.' :: padded 6 (nanos / 1000)
  else '.' :: padded 9 nanos

def chars (t : Timestamp) : List Char :=
  let date := Date.ofDays (t.seconds / 86400)
  let time := (t.seconds % 86400).toNat
  let leap := 1000000000 ≤ t.nanos
  let second := if leap then time % 60 + 1 else time % 60
  let nanos := if leap then t.nanos - 1000000000 else t.nanos
  yearChars date.year ++ '-' :: padded 2 date.month ++ '-' :: padded 2 date.day ++
    'T' :: padded 2 (time / 3600) ++ ':' :: padded 2 (time / 60 % 60) ++
    ':' :: padded 2 second ++ fractionChars nanos ++ ['Z']

def text (t : Timestamp) : String :=
  String.ofList t.chars

end Timestamp
end Switchboard
