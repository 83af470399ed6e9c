import Switchboard.Text.Utf8

/-!
# Cursors

A cursor names the task behind which a page starts: the bytes of its identifier, two hexadecimal
digits each. Reading takes digits in either case, and a plus sign in place of a first digit that
would be zero. Whatever the identifier, its cursor leads back to it: `Cursor.toId?_ofId`.
-/

namespace Switchboard
namespace Cursor

/-- A hexadecimal digit, in lower case. -/
def digitChar (n : Nat) : Char := Nat.digitChar n

/-- The value of a hexadecimal digit, in either case. -/
def digitValue? (c : Char) : Option Nat :=
  if c.isDigit then some (c.toNat - 48)
  else if 'a' ≤ c ∧ c ≤ 'f' then some (c.toNat - 87)
  else if 'A' ≤ c ∧ c ≤ 'F' then some (c.toNat - 55)
  else none

/-- Bytes in hexadecimal, two digits each. -/
def hex (bs : List UInt8) : String :=
  String.ofList (bs.flatMap fun b => [digitChar (b.toNat / 16), digitChar (b.toNat % 16)])

/-- The cursor of a task. -/
def ofId (id : String) : String :=
  hex (Text.bytes id)

/-- The byte that two characters write. -/
def byte? (c d : Char) : Option UInt8 :=
  if c = '+' then (digitValue? d).map UInt8.ofNat
  else
    match digitValue? c, digitValue? d with
    | some m, some n => some (UInt8.ofNat (m * 16 + n))
    | _, _ => none

/-- The bytes that pairs of characters write. -/
def bytes? : List Char → Option (List UInt8)
  | [] => some []
  | [_] => none
  | c :: d :: rest =>
    match byte? c d, bytes? rest with
    | some b, some bs => some (b :: bs)
    | _, _ => none

/-- The task that a cursor names. -/
def toId? (cursor : String) : Option String :=
  (bytes? cursor.toList).bind Text.ofBytes?

theorem digitValue?_digitChar : ∀ n < 16, digitValue? (digitChar n) = some n := by
  decide

theorem digitChar_ne_plus : ∀ n < 16, digitChar n ≠ '+' := by
  decide

theorem byte?_digits (b : UInt8) :
    byte? (digitChar (b.toNat / 16)) (digitChar (b.toNat % 16)) = some b := by
  have hb : b.toNat < 256 := b.toNat_lt
  have hhigh : b.toNat / 16 < 16 := by omega
  have hlow : b.toNat % 16 < 16 := by omega
  have hsum : b.toNat / 16 * 16 + b.toNat % 16 = b.toNat := by omega
  simp [byte?, digitChar_ne_plus _ hhigh, digitValue?_digitChar _ hhigh,
    digitValue?_digitChar _ hlow, hsum]

theorem bytes?_hex (bs : List UInt8) : bytes? (hex bs).toList = some bs := by
  rw [hex, String.toList_ofList]
  induction bs with
  | nil => rfl
  | cons b bs ih =>
    rw [List.flatMap_cons]
    simp [bytes?, byte?_digits, ih]

/-- **The cursor of a task leads back to the task.** -/
theorem toId?_ofId (id : String) : toId? (ofId id) = some id := by
  rw [toId?, ofId, bytes?_hex, Option.bind_some, Text.ofBytes?_bytes]

end Cursor
end Switchboard
