/-!
# The frame checksum

CRC-16 with the polynomial `x^16 + x^15 + x^2 + 1`, low bits first, starting from zero and taken
as it is.
-/

namespace Switchboard
namespace Checksum

/-- The polynomial without its leading term, low bits first. -/
def polynomial : UInt16 := 0xA001

/-- One bit out of the remainder. -/
def shift (c : UInt16) : UInt16 :=
  if c &&& 1 = 0 then c >>> 1 else (c >>> 1) ^^^ polynomial

/-- A byte into the remainder. -/
def push (c : UInt16) (b : UInt8) : UInt16 :=
  shift (shift (shift (shift (shift (shift (shift (shift (c ^^^ b.toUInt16))))))))

/-- The remainder after the bytes, from `c` on. -/
def extend (c : UInt16) (bs : List UInt8) : UInt16 :=
  bs.foldl push c

/-- The checksum of a payload. -/
def ofBytes (bs : List UInt8) : UInt16 :=
  extend 0 bs

end Checksum
end Switchboard
