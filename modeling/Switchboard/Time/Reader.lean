import Switchboard.Json.Shape
import Switchboard.Text.Blank
import Switchboard.Time.Timestamp

/-!
# Reading instants

`Timestamp.read` takes date, time and offset from UTC, as in `2020-01-02T03:04:05.5+01:00`. A
blank or a small `t` may stand for the `T`, `z` or `UTC` for the offset zero, and blanks may
stand between the parts. A year without a sign has at most four digits. Digits of a fraction after the
ninth are dropped. Second 60 is a leap second.
-/

namespace Switchboard
namespace Timestamp

/-- What is wrong with the text of an instant. -/
inductive Fault
  /-- A part is outside its range, or the day does not exist. -/
  | outOfRange
  /-- The instant in UTC is outside the calendar. -/
  | impossible
  | invalid
  | tooShort
  | tooLong
deriving DecidableEq

def Fault.message : Fault → String
  | .outOfRange => "input is out of range"
  | .impossible => "no possible date and time matching input"
  | .invalid => "input contains invalid characters"
  | .tooShort => "premature end of input"
  | .tooLong => "trailing input"

/-- Takes something off the front of a text. -/
abbrev Part (α : Type) := List Char → Except Fault (α × List Char)

def digitValue (c : Char) : Nat := c.toNat - 48

/-- The number that digits write. -/
def ofDigits (cs : List Char) : Nat :=
  cs.foldl (fun n c => n * 10 + digitValue c) 0

/-- At least one digit and at most `max`. -/
def number (max : Nat) : Part Nat := fun cs =>
  let ds := (cs.take max).takeWhile Char.isDigit
  match cs, ds with
  | [], _ => .error .tooShort
  | _, [] => .error .invalid
  | _, _ => .ok (ofDigits ds, cs.drop ds.length)

/-- All digits, at least one; the number has at most 63 bits. -/
def longNumber : Part Nat := fun cs =>
  match number cs.length cs with
  | .ok (n, rest) => if n < 1 <<< 63 then .ok (n, rest) else .error .outOfRange
  | .error e => .error e

/-- A number of up to two digits within bounds, after blanks. -/
def field (low high : Nat) : Part Nat := fun cs =>
  match number 2 (Text.skipBlanks cs) with
  | .ok (n, rest) => if low ≤ n ∧ n ≤ high then .ok (n, rest) else .error .outOfRange
  | .error e => .error e

/-- A given character, after blanks. -/
def mark (c : Char) : Part Unit := fun cs =>
  match Text.skipBlanks cs with
  | [] => .error .tooShort
  | d :: rest => if d = c then .ok ((), rest) else .error .invalid

/-- A year of 32 bits, after blanks. -/
def year : Part Int := fun cs =>
  let signed (f : Nat → Int) (rest : List Char) : Except Fault (Int × List Char) :=
    match longNumber rest with
    | .ok (n, rest) =>
      if -(1 <<< 31 : Nat) ≤ f n ∧ f n < (1 <<< 31 : Nat) then .ok (f n, rest) else .error .outOfRange
    | .error e => .error e
  match Text.skipBlanks cs with
  | '-' :: rest => signed (fun n => -(n : Int)) rest
  | '+' :: rest => signed (fun n => n) rest
  | cs => (number 4 cs).map fun (n, rest) => (n, rest)

/-- Nanoseconds after a point, if there is one. -/
def fraction : Part Nat
  | '.' :: cs =>
    match number 9 cs with
    | .ok (n, rest) =>
      let taken := cs.length - rest.length
      .ok (n * Nat.pow 10 (9 - taken), rest.dropWhile Char.isDigit)
    | .error e => .error e
  | cs => .ok (0, cs)

/-- Two digits. A lone character counts as many bytes as it takes. -/
def twoDigits : Part Nat
  | a :: b :: rest =>
    if a.isDigit && b.isDigit then .ok (digitValue a * 10 + digitValue b, rest)
    else .error .invalid
  | [a] => .error (if a.utf8Size < 2 then .tooShort else .invalid)
  | [] => .error .tooShort

/-- Hours and minutes, in seconds. -/
def offsetSize : Part Int := fun cs =>
  match twoDigits cs with
  | .error e => .error e
  | .ok (hours, rest) =>
    match twoDigits (rest.dropWhile fun c => c = ':' || Text.isBlank c) with
    | .error e => .error e
    | .ok (minutes, rest) =>
      if 60 ≤ minutes then .error .outOfRange else .ok (hours * 3600 + minutes * 60, rest)

/-- The offset from UTC, in seconds. -/
def offset : Part Int := fun cs =>
  match cs with
  | 'Z' :: rest | 'z' :: rest => .ok (0, rest)
  | a :: b :: c :: rest =>
    if a.toUpper = 'U' && b.toUpper = 'T' && c.toUpper = 'C' then .ok (0, rest) else sized cs
  | _ => sized cs
where
  /-- A sign and the size of the offset. -/
  sized : Part Int
    | '+' :: rest => offsetSize rest
    | '-' :: rest | '\u2212' :: rest => (offsetSize rest).map fun (n, rest) => (-n, rest)
    | _ :: _ => .error .invalid
    | [] => .error .tooShort

/-- The first and the last day of the calendar. -/
def calendarDays : Int × Int :=
  (Date.toDays ⟨-262143, 1, 1⟩, Date.toDays ⟨262142, 12, 31⟩)

/-- The instant of a date, seconds of the day, nanoseconds and an offset. -/
def ofParts (date : Date) (second nanos : Nat) (offset : Int) : Except Fault Timestamp :=
  if date.year < -262143 ∨ 262142 < date.year ∨ date.valid = false then .error .outOfRange
  else if offset ≤ -86400 ∨ 86400 ≤ offset then .error .outOfRange
  else
    let seconds := date.toDays * 86400 + second - offset
    let day := seconds / 86400
    if day < calendarDays.1 ∨ calendarDays.2 < day then .error .impossible
    else .ok ⟨seconds, nanos⟩

/-- The instant that a text writes. -/
def readChars (cs : List Char) : Except Fault Timestamp := do
  let (y, cs) ← year cs
  let (_, cs) ← mark '-' cs
  let (m, cs) ← field 1 12 cs
  let (_, cs) ← mark '-' cs
  let (d, cs) ← field 1 31 cs
  let cs ← match cs with
    | 't' :: rest | 'T' :: rest | ' ' :: rest => .ok rest
    | _ :: _ => .error .invalid
    | [] => .error .tooShort
  let (hour, cs) ← field 0 23 cs
  let (_, cs) ← mark ':' cs
  let (minute, cs) ← field 0 59 cs
  let (_, cs) ← mark ':' cs
  let (second, cs) ← field 0 60 cs
  let (nanos, cs) ← fraction cs
  let (off, cs) ← offset (Text.skipBlanks cs)
  if (Text.skipBlanks cs).isEmpty then
    let leap := second = 60
    ofParts ⟨y, m, d⟩ (hour * 3600 + minute * 60 + if leap then 59 else second)
      (if leap then nanos + 1000000000 else nanos) off
  else .error .tooLong

def read (s : String) : Except Fault Timestamp :=
  readChars s.toList

/-- An instant is written as a string. -/
def ofJson : Shape Timestamp
  | .str s =>
    match read s with
    | .ok t => .ok t
    | .error e => .error (.malformedText e.message)
  | v => .error (.wrongType v "an RFC 3339 formatted date and time string")

def toJson (t : Timestamp) : Json :=
  .str t.text

end Timestamp
end Switchboard
