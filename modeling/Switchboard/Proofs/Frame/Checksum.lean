import Mathlib.Data.Nat.Bitwise
import Switchboard.Frame.Checksum

/-!
# What the checksum detects

The checksum takes a payload in bit by bit, the lowest bit of each byte first (`extend_eq_foldl`),
and it is linear: the checksum of a payload that has been disturbed by a pattern differs from that
of the payload by the checksum of the pattern (`ofBytes_disturb`). So a disturbance is detected
unless its pattern has the checksum zero.

Two kinds of patterns never have it. A pattern with an odd number of ones leaves a remainder with an
odd number of ones, because the polynomial has an even number of terms (`parity_foldl`). A pattern
whose ones lie within sixteen bits in a row leaves one too: its first one brings the polynomial into
the remainder, which needs sixteen further bits to leave it again (`toNat_lt_of_foldl_eq_zero`).
-/

namespace Switchboard
namespace Checksum

/-! ### Bits -/

/-- The bits of a byte, lowest first. -/
def byteBits (b : UInt8) : List Bool :=
  (List.range 8).map b.toNat.testBit

/-- The bits of bytes, of each byte the lowest first. -/
def bits (bs : List UInt8) : List Bool :=
  bs.flatMap byteBits

/-- Whether a list of bits has an odd number of ones. -/
def odd (bs : List Bool) : Bool :=
  bs.foldr xor false

theorem odd_eq (bs : List Bool) : odd bs = decide (bs.count true % 2 = 1) := by
  induction bs with
  | nil => rfl
  | cons b bs ih =>
    have hodd : odd (b :: bs) = xor b (odd bs) := rfl
    rw [hodd, ih]
    cases b with
    | false => rw [List.count_cons_of_ne (by decide), Bool.false_xor]
    | true =>
      rw [List.count_cons_self, Bool.true_xor, ← decide_not, decide_eq_decide]
      omega

/-- Bytes of which some bits have been turned over: those that are set in a pattern. -/
def disturb (payload pattern : List UInt8) : List UInt8 :=
  List.zipWith (· ^^^ ·) payload pattern

/-! ### One bit -/

theorem toNat_half (c : UInt16) : (c >>> 1).toNat = c.toNat / 2 := by
  rw [UInt16.toNat_shiftRight]
  exact Nat.shiftRight_eq_div_pow _ 1

/-- A remainder moves down by one place, and the polynomial is added if a one falls out. -/
theorem toNat_shift (c : UInt16) :
    (shift c).toNat = c.toNat / 2 ^^^ (c.toNat % 2) * polynomial.toNat := by
  have hlow : (c &&& 1 = 0) ↔ c.toNat % 2 = 0 := by
    rw [← UInt16.toNat_inj, UInt16.toNat_and]
    show c.toNat &&& 1 = 0 ↔ _
    rw [Nat.and_one_is_mod]
  unfold shift
  split
  · rename_i h
    rw [hlow.1 h, toNat_half, Nat.zero_mul, Nat.xor_zero]
  · rename_i h
    have hone : c.toNat % 2 = 1 := by
      have := mt hlow.2 h
      omega
    rw [hone, UInt16.toNat_xor, toNat_half, Nat.one_mul]

/-- **A shift is linear.** -/
theorem shift_xor (c d : UInt16) : shift (c ^^^ d) = shift c ^^^ shift d := by
  rw [← UInt16.toNat_inj, UInt16.toNat_xor, toNat_shift, toNat_shift, toNat_shift, UInt16.toNat_xor,
    Nat.xor_div_two, Nat.xor_mod_two_eq]
  have hc := Nat.mod_two_eq_zero_or_one c.toNat
  have hd := Nat.mod_two_eq_zero_or_one d.toNat
  rcases hc with hc | hc <;> rcases hd with hd | hd <;> rw [Nat.add_mod, hc, hd]
  · simp
  · simp [Nat.xor_assoc]
  · simp [Nat.xor_assoc, Nat.xor_comm, Nat.xor_left_comm]
  · simp [Nat.xor_comm, Nat.xor_left_comm]

theorem shift_zero : shift 0 = 0 :=
  rfl

/-- A bit into the remainder. -/
def pushBit (c : UInt16) (b : Bool) : UInt16 :=
  shift (c ^^^ b.toUInt16)

/-! ### The payload, bit by bit -/

/-- The lowest `n` bits of a word go into the remainder, and the others stay behind. -/
theorem iterate_shift_xor (n : Nat) (c x : UInt16) :
    (shift^[n] (c ^^^ x)).toNat =
      (((List.range n).map x.toNat.testBit).foldl pushBit c).toNat ^^^ x.toNat / 2 ^ n := by
  induction n generalizing c x with
  | zero => simp
  | succ n ih =>
    have hbit : (x.toNat.testBit 0).toUInt16.toNat = x.toNat % 2 := by
      rw [Nat.testBit_zero]
      rcases Nat.mod_two_eq_zero_or_one x.toNat with h | h <;> rw [h] <;> rfl
    have hlow : shift x = shift (x.toNat.testBit 0).toUInt16 ^^^ x >>> 1 := by
      rw [← UInt16.toNat_inj, UInt16.toNat_xor, toNat_shift, toNat_shift, toNat_half, hbit,
        Nat.mod_mod, Nat.div_eq_of_lt (Nat.mod_lt _ (by decide)), Nat.zero_xor, Nat.xor_comm]
    have hpeel : shift (c ^^^ x) = pushBit c (x.toNat.testBit 0) ^^^ x >>> 1 := by
      rw [pushBit, shift_xor, shift_xor, hlow, UInt16.xor_assoc]
    rw [Function.iterate_succ_apply, hpeel, ih, toNat_half, List.range_succ_eq_map, List.map_cons,
      List.foldl_cons, List.map_map, Nat.div_div_eq_div_mul, Nat.pow_succ']
    simp only [Function.comp_def, Nat.succ_eq_add_one, ← Nat.testBit_div_two]

/-- **A byte goes into the remainder bit by bit.** -/
theorem push_eq_foldl (c : UInt16) (b : UInt8) : push c b = (byteBits b).foldl pushBit c := by
  have hbyte : b.toUInt16.toNat = b.toNat := rfl
  have hiter : push c b = shift^[8] (c ^^^ b.toUInt16) := rfl
  have hgone : b.toNat / 2 ^ 8 = 0 := Nat.div_eq_of_lt b.toNat_lt
  rw [← UInt16.toNat_inj, hiter, iterate_shift_xor, hbyte, hgone, Nat.xor_zero]
  rfl

/-- **The checksum takes a payload in bit by bit.** -/
theorem extend_eq_foldl (c : UInt16) (bs : List UInt8) :
    extend c bs = (bits bs).foldl pushBit c := by
  induction bs generalizing c with
  | nil => rfl
  | cons b bs ih =>
    rw [bits, List.flatMap_cons, List.foldl_append, ← push_eq_foldl]
    exact ih (push c b)

/-- The digits from one to nine have the check value of CRC-16/ARC. -/
example : ofBytes [0x31, 0x32, 0x33, 0x34, 0x35, 0x36, 0x37, 0x38, 0x39] = 0xBB3D := by
  decide +kernel

/-- **The checksum is linear.** -/
theorem extend_disturb (c d : UInt16) {payload pattern : List UInt8}
    (h : pattern.length = payload.length) :
    extend (c ^^^ d) (disturb payload pattern) = extend c payload ^^^ extend d pattern := by
  induction payload generalizing pattern c d with
  | nil =>
    rw [List.length_nil, List.length_eq_zero_iff] at h
    subst h
    rfl
  | cons a payload ih =>
    cases pattern with
    | nil => exact absurd h (by simp)
    | cons b pattern =>
      have hpush : push (c ^^^ d) (a ^^^ b) = push c a ^^^ push d b := by
        have hcross : c ^^^ d ^^^ (a.toUInt16 ^^^ b.toUInt16) =
            c ^^^ a.toUInt16 ^^^ (d ^^^ b.toUInt16) := by
          ac_rfl
        simp only [push, UInt8.toUInt16_xor, hcross, shift_xor]
      have hrest := ih (push c a) (push d b) (by simpa using h)
      rw [← hpush] at hrest
      exact hrest

/-- The checksum of a disturbed payload. -/
theorem ofBytes_disturb {payload pattern : List UInt8} (h : pattern.length = payload.length) :
    ofBytes (disturb payload pattern) = ofBytes payload ^^^ ofBytes pattern :=
  extend_disturb 0 0 h

/-- A disturbance is detected unless its pattern has the checksum zero. -/
theorem ofBytes_disturb_ne {payload pattern : List UInt8} (h : pattern.length = payload.length)
    (hne : ofBytes pattern ≠ 0) : ofBytes (disturb payload pattern) ≠ ofBytes payload := by
  rw [ofBytes_disturb h]
  intro he
  refine hne ?_
  have hcancel := congrArg (ofBytes payload ^^^ ·) he
  simpa [← UInt16.xor_assoc] using hcancel

/-! ### Odd patterns -/

/-- Whether a number has an odd number of ones. -/
def parity (n : Nat) : Bool :=
  if n = 0 then false else xor (n % 2 = 1) (parity (n / 2))
decreasing_by omega

theorem parity_zero : parity 0 = false := by
  rw [parity, if_pos rfl]

theorem parity_eq (n : Nat) : parity n = xor (n % 2 = 1) (parity (n / 2)) := by
  rw [parity]
  split
  · rename_i h
    rw [h, Nat.zero_div, parity_zero]
    rfl
  · rfl

theorem parity_bit (b : Bool) : parity b.toUInt16.toNat = b := by
  cases b with
  | false => exact parity_zero
  | true =>
    show parity 1 = true
    rw [parity_eq, Nat.div_eq_of_lt (by decide), parity_zero]
    rfl

theorem parity_xor (m n : Nat) : parity (m ^^^ n) = xor (parity m) (parity n) := by
  induction m using Nat.strong_induction_on generalizing n with
  | _ m ih =>
    by_cases hm : m = 0
    · rw [hm, Nat.zero_xor, parity_zero, Bool.false_xor]
    · have hlow : decide ((m ^^^ n) % 2 = 1) = xor (decide (m % 2 = 1)) (decide (n % 2 = 1)) := by
        rw [Nat.xor_mod_two_eq, Nat.add_mod]
        rcases Nat.mod_two_eq_zero_or_one m with hm | hm <;>
          rcases Nat.mod_two_eq_zero_or_one n with hn | hn <;> rw [hm, hn] <;> rfl
      rw [parity_eq (m ^^^ n), parity_eq m, parity_eq n, Nat.xor_div_two, ih _ (by omega), hlow,
        Bool.xor_assoc, Bool.xor_assoc, Bool.xor_left_comm (decide (n % 2 = 1))]

theorem parity_polynomial : parity polynomial.toNat = true := by
  simp [parity, polynomial]

/-- **A shift keeps the parity**: with the one that falls out, three others come in. -/
theorem parity_shift (c : UInt16) : parity (shift c).toNat = parity c.toNat := by
  rw [toNat_shift, parity_xor, parity_eq c.toNat]
  rcases Nat.mod_two_eq_zero_or_one c.toNat with h | h <;> rw [h]
  · rw [Nat.zero_mul, parity_zero, Bool.xor_false, decide_eq_false (by decide), Bool.false_xor]
  · rw [Nat.one_mul, parity_polynomial, Bool.xor_comm, decide_eq_true rfl]

theorem parity_pushBit (c : UInt16) (b : Bool) :
    parity (pushBit c b).toNat = xor (parity c.toNat) b := by
  rw [pushBit, parity_shift, UInt16.toNat_xor, parity_xor, parity_bit]

theorem parity_foldl (c : UInt16) (bs : List Bool) :
    parity (bs.foldl pushBit c).toNat = xor (parity c.toNat) (odd bs) := by
  induction bs generalizing c with
  | nil => exact (Bool.xor_false _).symm
  | cons b bs ih =>
    rw [List.foldl_cons, ih, parity_pushBit, Bool.xor_assoc]
    rfl

/-- **A pattern with an odd number of ones has a checksum other than zero.** -/
theorem ofBytes_ne_zero_of_odd {pattern : List UInt8} (h : (bits pattern).count true % 2 = 1) :
    ofBytes pattern ≠ 0 := by
  intro hzero
  have hparity := parity_foldl 0 (bits pattern)
  rw [← extend_eq_foldl, ← ofBytes, hzero, odd_eq, decide_eq_true h] at hparity
  exact absurd hparity (by simp [parity_zero])

/-! ### Bursts -/

/-- There are ones, and all of them lie within so many bits in a row. -/
def Burst (width : Nat) (bs : List Bool) : Prop :=
  true ∈ bs ∧ ∃ start, ∀ i (_ : i < bs.length), bs[i] = true → start ≤ i ∧ i < start + width

/-- A short block of bits with a one, behind any number of zeros. -/
theorem Burst.of_block {width zeros : Nat} {block : List Bool} (ht : true ∈ block)
    (hw : block.length ≤ width) : Burst width (List.replicate zeros false ++ block) := by
  refine ⟨List.mem_append_right _ ht, zeros, fun i hi hset => ⟨Nat.not_lt.mp fun hlt => ?_, ?_⟩⟩
  · rw [List.getElem_append_left (by rwa [List.length_replicate]), List.getElem_replicate] at hset
    exact nomatch hset
  · rw [List.length_append, List.length_replicate] at hi
    omega

/-- A burst begins with a one, and behind its end there are zeros only. -/
theorem Burst.split {width : Nat} {bs : List Bool} (h : Burst width bs) :
    ∃ before inside after, bs = List.replicate before false ++ true :: inside ++
      List.replicate after false ∧ inside.length < width := by
  obtain ⟨hmem, start, hwithin⟩ := h
  obtain ⟨zeros, rest, rfl, hzeros⟩ := List.eq_append_cons_of_mem hmem
  have hfirst := hwithin zeros.length (by simp) (by simp)
  have hbefore : zeros = List.replicate zeros.length false :=
    List.eq_replicate_iff.2 ⟨rfl, fun b hb => by cases b <;> simp_all⟩
  have hafter : rest.drop (width - 1) = List.replicate (rest.drop (width - 1)).length false := by
    refine List.eq_replicate_iff.2 ⟨rfl, fun b hb => ?_⟩
    by_contra hone
    rw [Bool.not_eq_false] at hone
    obtain ⟨j, hj, hjb⟩ := List.getElem_of_mem hb
    rw [List.length_drop] at hj
    rw [List.getElem_drop] at hjb
    have hlast := hwithin (zeros.length + (width - 1 + j + 1)) (by simp; omega) (by
      rw [List.getElem_append_right (Nat.le_add_right _ _)]
      simp [hjb, hone])
    omega
  refine ⟨zeros.length, rest.take (width - 1), (rest.drop (width - 1)).length, ?_, ?_⟩
  · rw [← hbefore, ← hafter, List.append_assoc, List.cons_append, List.take_append_drop]
  · rw [List.length_take]
    omega

/-- Nothing falls out of a remainder that is small after a shift. -/
theorem toNat_eq_of_shift_lt {c : UInt16} (h : (shift c).toNat < 2 ^ 15) :
    c.toNat = 2 * (shift c).toNat := by
  rw [toNat_shift] at h ⊢
  rcases Nat.mod_two_eq_zero_or_one c.toNat with hlow | hlow
  · rw [hlow, Nat.zero_mul, Nat.xor_zero]
    omega
  · -- The polynomial would have set the highest bit.
    rw [hlow, Nat.one_mul] at h
    have hhalf : c.toNat / 2 < 2 ^ 15 := by
      have := c.toNat_lt
      omega
    have hhigh : (c.toNat / 2 ^^^ polynomial.toNat).testBit 15 = true := by
      rw [Nat.testBit_xor, Nat.testBit_eq_false_of_lt hhalf]
      rfl
    exact absurd h (Nat.not_lt.2 (Nat.ge_two_pow_of_testBit hhigh))

theorem eq_zero_of_shift {c : UInt16} (h : shift c = 0) : c = 0 := by
  have hc := @toNat_eq_of_shift_lt c (by rw [h]; decide)
  rw [h] at hc
  exact UInt16.toNat_inj.1 hc

theorem eq_zero_of_iterate_shift {n : Nat} {c : UInt16} (h : shift^[n] c = 0) : c = 0 := by
  induction n with
  | zero => exact h
  | succ n ih =>
    rw [Function.iterate_succ_apply'] at h
    exact ih (eq_zero_of_shift h)

/-- **It takes sixteen bits to bring a remainder to zero** whose highest bit is set. -/
theorem toNat_lt_of_foldl_eq_zero {c : UInt16} {bs : List Bool} (h : bs.foldl pushBit c = 0) :
    c.toNat < 2 ^ bs.length := by
  induction bs generalizing c with
  | nil =>
    rw [List.foldl_nil] at h
    subst h
    decide
  | cons b bs ih =>
    have hlt := ih h
    rw [List.length_cons]
    by_cases hlong : 15 ≤ bs.length
    · have hpow : 2 ^ 16 ≤ 2 ^ (bs.length + 1) := Nat.pow_le_pow_right (by decide) (by omega)
      exact Nat.lt_of_lt_of_le c.toNat_lt hpow
    · have hpow : 2 ^ bs.length ≤ 2 ^ 15 := Nat.pow_le_pow_right (by decide) (by omega)
      -- So few bits are left that the polynomial would stay if it came in now.
      have htwice := @toNat_eq_of_shift_lt (c ^^^ b.toUInt16) (Nat.lt_of_lt_of_le hlt hpow)
      rw [← pushBit, UInt16.toNat_xor] at htwice
      rw [Nat.pow_succ]
      cases b with
      | false =>
        have hsame : c.toNat ^^^ (false.toUInt16).toNat = c.toNat := Nat.xor_zero _
        omega
      | true =>
        have hflip : c.toNat ^^^ (true.toUInt16).toNat = c.toNat ^^^ 1 := rfl
        rcases Nat.even_or_odd c.toNat with hc | hc
        · rw [hflip, Nat.xor_one_of_even hc] at htwice
          omega
        · rw [hflip, Nat.xor_one_of_odd hc] at htwice
          omega

theorem foldl_replicate_false (n : Nat) (c : UInt16) :
    (List.replicate n false).foldl pushBit c = shift^[n] c := by
  induction n generalizing c with
  | zero => rfl
  | succ n ih =>
    have hbit : pushBit c false = shift c := by
      rw [pushBit]
      exact congrArg shift UInt16.xor_zero
    rw [List.replicate_succ, List.foldl_cons, ih, hbit, Function.iterate_succ_apply]

/-- **A burst of at most sixteen bits has a checksum other than zero.** -/
theorem foldl_ne_zero_of_burst {bs : List Bool} (h : Burst 16 bs) : bs.foldl pushBit 0 ≠ 0 := by
  intro hzero
  obtain ⟨before, inside, after, rfl, hinside⟩ := h.split
  rw [List.foldl_append, List.foldl_append, List.foldl_cons, foldl_replicate_false,
    foldl_replicate_false, Function.iterate_fixed shift_zero] at hzero
  have hlt := toNat_lt_of_foldl_eq_zero (eq_zero_of_iterate_shift hzero)
  have hpow : 2 ^ inside.length ≤ 2 ^ 15 := Nat.pow_le_pow_right (by decide) (by omega)
  have hfirst : (pushBit 0 true).toNat = polynomial.toNat := rfl
  have hhigh : 2 ^ 15 ≤ polynomial.toNat := by decide
  omega

end Checksum
end Switchboard
