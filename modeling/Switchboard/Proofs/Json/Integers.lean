import Mathlib.Algebra.Order.Ring.Nat
import Switchboard.Json.Printer
import Switchboard.Json.Reader

/-!
# Integers read back

The reader takes the decimal digits of an integer up to the first byte that ends it; in a text that
is a comma or a closing bracket (`Closes`). An integer from `-2^63` to `2^64 - 1` comes back as it
was (`run_writeInt`).
-/

namespace Switchboard
namespace Json
namespace Reader

/-- What follows an integer inside an array or an object. -/
def Closes (rest : List UInt8) : Prop :=
  ∃ b bs, rest = b :: bs ∧ (b = 44 ∨ b = 93 ∨ b = 125)

/-- What has been read of an integer without leading zeros. -/
def digits (negative : Bool) (n : Nat) : NumberText :=
  { part := .integer, negative, significand := n }

/-! ### Digits -/

theorem ofUInt8_digit : ∀ d < 10, Char.ofUInt8 (Nat.digitChar d).toUInt8 = Nat.digitChar d := by
  decide

theorem push_digits {negative : Bool} {n d : Nat} (hd : d < 10)
    (hmax : n * 10 + d ≤ NumberText.maxSignificand) :
    (digits negative n).push (Nat.digitChar d) = .more (digits negative (n * 10 + d)) := by
  have hdigit : (Nat.digitChar d).isDigit = true := by
    rw [Nat.isDigit_digitChar]
    exact decide_eq_true hd
  have hfit : ¬ NumberText.maxSignificand < n * 10 + d := by omega
  simp only [NumberText.push, digits, hdigit, Nat.toNat_digitChar_sub_48_of_lt_ten hd]
  simp [NumberText.integerDigit, hfit]

/-- **Digits are read as the number that they write.** The first one, which is not zero, may come
after a sign. -/
theorem run_toDigits {negative : Bool} {stack : List Container} {s : State}
    (first : ∀ d, 0 < d → d < 10 →
      step s (Nat.digitChar d).toUInt8 = .ok ⟨.number (digits negative d), stack⟩)
    (n : Nat) (hpos : 0 < n) (hmax : n ≤ NumberText.maxSignificand) :
    run s (Text.ascii (Nat.toDigits 10 n)) = .ok ⟨.number (digits negative n), stack⟩ := by
  induction n using Nat.strongRecOn with
  | ind n ih =>
    by_cases hn : n < 10
    · rw [Nat.toDigits_of_lt_base hn]
      simp only [Text.ascii, List.map_cons, List.map_nil, run, first n hpos hn]
    · have hmod : n % 10 < 10 := Nat.mod_lt n (by decide)
      have hsplit : n / 10 * 10 + n % 10 = n := by omega
      have hinit := ih (n / 10) (by omega) (by omega) (by omega)
      rw [Nat.toDigits_of_base_le (by decide) (by omega), Text.ascii, List.map_append, run_append]
      rw [Text.ascii] at hinit
      rw [hinit]
      have hpush := @push_digits negative (n / 10) _ hmod (by omega)
      rw [hsplit] at hpush
      simp only [Except.bind, List.map_cons, List.map_nil, run, step, ofUInt8_digit _ hmod, hpush]

/-! ### The end of an integer -/

/-- After a value, a byte is taken like any other byte between values. -/
theorem step_deliver (v : Json) (stack : List Container) (b : UInt8) :
    step (deliver v stack) b = between (deliver v stack) (Char.ofUInt8 b) := by
  cases stack with
  | nil => rfl
  | cons c stack => cases c <;> rfl

/-- An integer ends where something closes it. -/
theorem run_number {t : NumberText} {v : Json} (hv : t.value? = some v)
    (hpart : t.part = .zero ∨ t.part = .integer) {rest : List UInt8} (hrest : Closes rest)
    (stack : List Container) :
    run ⟨.number t, stack⟩ rest = run (deliver v stack) rest := by
  obtain ⟨b, bs, rfl, hb⟩ := hrest
  have hend : t.push (Char.ofUInt8 b) = .ended := by
    rcases hb with rfl | rfl | rfl <;> rcases hpart with hp | hp <;> rw [NumberText.push, hp] <;> rfl
  rw [run, run, step_deliver]
  simp only [step, hend, endNumber, hv]

theorem value?_zero : ({ part := .zero } : NumberText).value? = some (.int 0) := by
  simp [NumberText.value?]

theorem value?_digits (n : Nat) : (digits false n).value? = some (.int n) := by
  simp [NumberText.value?, digits]

theorem value?_digits_neg {n : Nat} (hpos : 0 < n) (hmax : n ≤ 2 ^ 63) :
    (digits true n).value? = some (.int (-n)) := by
  unfold NumberText.value? digits
  rw [if_neg (by simp), if_pos ⟨by simp, hpos, hmax⟩]

/-! ### Whole integers -/

/-- The first digit of a value. -/
theorem step_value_digit (stack : List Container) (d : Nat) (hpos : 0 < d) (hd : d < 10) :
    step ⟨.value, stack⟩ (Nat.digitChar d).toUInt8 = .ok ⟨.number (digits false d), stack⟩ := by
  have hcases : d = 1 ∨ d = 2 ∨ d = 3 ∨ d = 4 ∨ d = 5 ∨ d = 6 ∨ d = 7 ∨ d = 8 ∨ d = 9 := by omega
  rcases hcases with rfl | rfl | rfl | rfl | rfl | rfl | rfl | rfl | rfl <;> rfl

/-- The first digit after a sign. -/
theorem step_sign_digit (stack : List Container) (d : Nat) (hpos : 0 < d) (hd : d < 10) :
    step ⟨.number { part := .sign, negative := true }, stack⟩ (Nat.digitChar d).toUInt8 =
      .ok ⟨.number (digits true d), stack⟩ := by
  have hcases : d = 1 ∨ d = 2 ∨ d = 3 ∨ d = 4 ∨ d = 5 ∨ d = 6 ∨ d = 7 ∨ d = 8 ∨ d = 9 := by omega
  rcases hcases with rfl | rfl | rfl | rfl | rfl | rfl | rfl | rfl | rfl <;> rfl

/-- **An integer is read up to its last digit**, whatever follows. -/
theorem run_writeInt {n : Int} (hn : inRange n) (stack : List Container) :
    ∃ t : NumberText, (t.part = .zero ∨ t.part = .integer) ∧ t.value? = some (.int n) ∧
      ∀ rest, run ⟨.value, stack⟩ (writeInt n rest) = run ⟨.number t, stack⟩ rest := by
  obtain ⟨hlow, hhigh⟩ := hn
  have hmax : NumberText.maxSignificand = 2 ^ 64 - 1 := rfl
  rcases Int.lt_trichotomy n 0 with hneg | rfl | hpos
  · have hrun := run_toDigits (step_sign_digit stack) n.natAbs (by omega) (by omega)
    refine ⟨digits true n.natAbs, .inr rfl, ?_, fun rest => ?_⟩
    · rw [value?_digits_neg (by omega) (by omega), Int.ofNat_natAbs_of_nonpos (by omega),
        Int.neg_neg]
    · have hsign : step ⟨.value, stack⟩ 45 =
          .ok ⟨.number { part := .sign, negative := true }, stack⟩ := rfl
      rw [writeInt, if_pos hneg, run, hsign]
      simp only [run_append, hrun, Except.bind]
  · exact ⟨_, .inl rfl, value?_zero, fun rest => rfl⟩
  · have hrun := run_toDigits (step_value_digit stack) n.natAbs (by omega) (by omega)
    refine ⟨digits false n.natAbs, .inr rfl, ?_, fun rest => ?_⟩
    · rw [value?_digits, Int.natAbs_of_nonneg (by omega)]
    · rw [writeInt, if_neg (by omega), run_append, hrun]
      rfl

end Reader
end Json
end Switchboard
