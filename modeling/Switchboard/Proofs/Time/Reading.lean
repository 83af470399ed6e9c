import Mathlib.Algebra.Order.Ring.Nat
import Switchboard.Proofs.Time.Calendar
import Switchboard.Time.Reader

/-!
# Instants read back

`Timestamp.chars` writes numbers with leading zeros, each followed by a character that is no digit;
the last digits of a fraction that are zero are left out in groups of three. Every part of the text
is read as the number that it was written from, and the numbers make up the same instant
(`Timestamp.read_text`): any instant of the calendar outside leap seconds.
-/

namespace Switchboard
namespace Timestamp

/-! ### Digits -/

theorem ofDigits_eq (cs : List Char) : ofDigits cs = Nat.ofDigitChars 10 cs 0 := by
  unfold ofDigits Nat.ofDigitChars digitValue
  simp only [Nat.mul_comm]
  rfl

theorem ofDigits_padded (width n : Nat) : ofDigits (padded width n) = n := by
  rw [ofDigits_eq, padded, Nat.ofDigitChars_append, Nat.ofDigitChars_replicate_zero, Nat.mul_zero,
    Nat.ofDigitChars_toDigits (by decide) (by decide)]

theorem isDigit_of_mem_padded {width n : Nat} {c : Char} (hc : c ∈ padded width n) :
    c.isDigit = true := by
  rcases List.mem_append.mp hc with hc | hc
  · rw [(List.mem_replicate.mp hc).2]
    rfl
  · exact Nat.isDigit_of_mem_toDigits (by decide) (by decide) hc

theorem padded_ne_nil (width n : Nat) : padded width n ≠ [] := by
  intro h
  exact Nat.toDigits_ne_nil (List.append_eq_nil_iff.mp h).2

theorem length_padded {width n : Nat} (hpos : 0 < width) (hn : n < 10 ^ width) :
    (padded width n).length = width := by
  have hle : (Nat.toDigits 10 n).length ≤ width :=
    (Nat.length_toDigits_le_iff (by decide) hpos).mpr hn
  rw [padded, List.length_append, List.length_replicate]
  omega

/-- A padded number has a first digit. -/
theorem exists_padded_eq_cons (width n : Nat) :
    ∃ c cs, padded width n = c :: cs ∧ c.isDigit = true := by
  obtain ⟨c, cs, h⟩ := List.exists_cons_of_ne_nil (padded_ne_nil width n)
  exact ⟨c, cs, h, isDigit_of_mem_padded (h ▸ List.mem_cons_self)⟩

theorem isBlank_of_isDigit {c : Char} (hc : c.isDigit = true) : Text.isBlank c = false := by
  have hrange : 48 ≤ c.toNat ∧ c.toNat ≤ 57 := by
    simpa [Char.isDigit, UInt32.le_iff_toNat_le] using hc
  simp only [Text.isBlank, Bool.or_eq_false_iff, Bool.and_eq_false_iff, decide_eq_false_iff_not]
  omega

theorem skipBlanks_padded (width n : Nat) (rest : List Char) :
    Text.skipBlanks (padded width n ++ rest) = padded width n ++ rest := by
  obtain ⟨c, cs, h, hc⟩ := exists_padded_eq_cons width n
  rw [h, List.cons_append, Text.skipBlanks, List.dropWhile_cons_of_neg]
  simp [isBlank_of_isDigit hc]

/-- **Digits are read up to their last one**, if there are no more than may be and no digit that
may still be follows. -/
theorem number_padded {max width n : Nat} {rest : List Char}
    (hlength : (padded width n).length ≤ max)
    (hend : (rest.take (max - (padded width n).length)).takeWhile Char.isDigit = []) :
    number max (padded width n ++ rest) = .ok (n, rest) := by
  have hdigits : ((padded width n ++ rest).take max).takeWhile Char.isDigit = padded width n := by
    rw [List.take_append, List.take_of_length_le hlength,
      List.takeWhile_append_of_pos fun _ => isDigit_of_mem_padded, hend, List.append_nil]
  obtain ⟨c, cs, h, -⟩ := exists_padded_eq_cons width n
  unfold number
  rw [hdigits]
  simp only [h, List.cons_append]
  rw [← List.cons_append, ← h, ofDigits_padded, List.drop_left]

/-! ### The parts of a text -/

theorem field_padded {low high n : Nat} (hlow : low ≤ n) (hhigh : n ≤ high) (hn : n < 100)
    (rest : List Char) : field low high (padded 2 n ++ rest) = .ok (n, rest) := by
  have hlength : (padded 2 n).length = 2 := length_padded (by decide) hn
  have hnumber : number 2 (padded 2 n ++ rest) = .ok (n, rest) :=
    number_padded (by omega) (by rw [hlength, Nat.sub_self]; rfl)
  rw [field, skipBlanks_padded, hnumber]
  exact if_pos ⟨hlow, hhigh⟩

theorem mark_cons {c : Char} (hc : Text.isBlank c = false) (rest : List Char) :
    mark c (c :: rest) = .ok ((), rest) := by
  rw [mark, Text.skipBlanks, List.dropWhile_cons_of_neg (by simp [hc])]
  exact if_pos rfl

theorem longNumber_padded {width n : Nat} (hn : n < 1 <<< 63) {rest : List Char}
    (hend : rest.takeWhile Char.isDigit = []) :
    longNumber (padded width n ++ rest) = .ok (n, rest) := by
  have hnumber : number (padded width n ++ rest).length (padded width n ++ rest) = .ok (n, rest) := by
    refine number_padded (by simp) ?_
    rw [List.length_append, Nat.add_sub_cancel_left, List.take_length, hend]
  rw [longNumber, hnumber]
  exact if_pos hn

/-- Neither sign is a digit, so a year that begins with a digit is read without one. -/
theorem year_padded {n : Nat} (hn : n < 10000) (rest : List Char) :
    year (padded 4 n ++ rest) = .ok ((n : Int), rest) := by
  have hlength : (padded 4 n).length = 4 := length_padded (by decide) hn
  have hnumber : number 4 (padded 4 n ++ rest) = .ok (n, rest) :=
    number_padded (by omega) (by rw [hlength, Nat.sub_self]; rfl)
  obtain ⟨c, cs, h, hc⟩ := exists_padded_eq_cons 4 n
  unfold year
  rw [skipBlanks_padded]
  split
  case h_1 heq =>
    rw [h] at heq
    cases heq
    exact absurd hc (by decide)
  case h_2 heq =>
    rw [h] at heq
    cases heq
    exact absurd hc (by decide)
  case h_3 =>
    rw [hnumber]
    rfl

/-- A year of the calendar is read back, whatever its sign. -/
theorem year_yearChars {y : Int} (hlow : -(1 <<< 31 : Nat) ≤ y) (hhigh : y < (1 <<< 31 : Nat))
    {rest : List Char} (hend : rest.takeWhile Char.isDigit = []) :
    year (yearChars y ++ rest) = .ok (y, rest) := by
  have hyears : (1 <<< 31 : Nat) = 2147483648 := rfl
  have hnumbers : (1 <<< 63 : Nat) = 9223372036854775808 := rfl
  unfold yearChars
  split
  case isTrue hneg =>
    have hblank : Text.skipBlanks ('-' :: padded 4 y.natAbs ++ rest) =
        '-' :: (padded 4 y.natAbs ++ rest) := rfl
    have hlong : y.natAbs < 1 <<< 63 := by omega
    have hy : -(y.natAbs : Int) = y := by omega
    simp only [year, hblank, longNumber_padded hlong hend, hy]
    exact if_pos ⟨hlow, hhigh⟩
  case isFalse hneg =>
    have hy : (y.toNat : Int) = y := by omega
    split
    case isTrue hshort => rw [year_padded (by omega), hy]
    case isFalse hlarge =>
      have hblank : Text.skipBlanks ('+' :: padded 4 y.toNat ++ rest) =
          '+' :: (padded 4 y.toNat ++ rest) := rfl
      have hlong : y.toNat < 1 <<< 63 := by omega
      simp only [year, hblank, longNumber_padded hlong hend, hy]
      exact if_pos ⟨hlow, hhigh⟩

/-- A fraction of which groups of zeros were left out. -/
theorem fraction_padded {width n nanos : Nat} (hpos : 0 < width) (hwidth : width ≤ 9)
    (hn : n < 10 ^ width) (hnanos : n * 10 ^ (9 - width) = nanos) :
    fraction (('.' :: padded width n) ++ ['Z']) = .ok (nanos, ['Z']) := by
  have hlength := length_padded hpos hn
  have hend : (['Z'].take (9 - (padded width n).length)).takeWhile Char.isDigit = [] := by
    cases 9 - (padded width n).length <;> rfl
  have htaken : (padded width n ++ ['Z']).length - ['Z'].length = width := by
    rw [List.length_append, Nat.add_sub_cancel, hlength]
  rw [List.cons_append, fraction, number_padded (by omega) hend, ← hnanos]
  simp only [htaken]
  rfl

theorem fraction_fractionChars {nanos : Nat} (hn : nanos < 1000000000) :
    fraction (fractionChars nanos ++ ['Z']) = .ok (nanos, ['Z']) := by
  unfold fractionChars
  split
  case isTrue hzero =>
    rw [hzero]
    rfl
  case isFalse =>
    split
    case isTrue hmillis => exact fraction_padded (by decide) (by decide) (by omega) (by omega)
    case isFalse =>
      split
      case isTrue hmicros => exact fraction_padded (by decide) (by decide) (by omega) (by omega)
      case isFalse => exact fraction_padded (by decide) (by decide) (by omega) (by omega)

/-! ### The whole instant -/

/-- The days of the calendar's years are the days of the calendar. -/
theorem calendarDays_of_year {n : Int} (hlow : -262143 ≤ (Date.ofDays n).year)
    (hhigh : (Date.ofDays n).year ≤ 262142) : calendarDays.1 ≤ n ∧ n ≤ calendarDays.2 := by
  have hfirst : calendarDays.1 = -96465292 := by decide
  have hlast : calendarDays.2 = 95026236 := by decide
  obtain ⟨year, day, ⟨h0, h1⟩, -, hdate, hn⟩ := Date.exists_fromMarch n
  have hyear : (Date.fromMarch year day).year = if (5 * day + 2) / 153 < 10 then year else year + 1 :=
    rfl
  rw [hdate, hyear] at hlow hhigh
  rw [hfirst, hlast]
  omega

/-- The parts of a date and a time of day make up the instant that they were taken from. -/
theorem ofParts_ofDays {t : Timestamp} (hlow : -262143 ≤ (Date.ofDays (t.seconds / 86400)).year)
    (hhigh : (Date.ofDays (t.seconds / 86400)).year ≤ 262142) {second : Nat}
    (hsecond : (second : Int) = t.seconds % 86400) :
    ofParts (Date.ofDays (t.seconds / 86400)) second t.nanos 0 = .ok t := by
  have hdays := calendarDays_of_year hlow hhigh
  have hdate : ¬ ((Date.ofDays (t.seconds / 86400)).year < -262143 ∨
      262142 < (Date.ofDays (t.seconds / 86400)).year ∨
        (Date.ofDays (t.seconds / 86400)).valid = false) := by
    rw [Date.valid_ofDays]
    rintro (h | h | h)
    · omega
    · omega
    · cases h
  have hsum : t.seconds / 86400 * 86400 + second - 0 = t.seconds := by omega
  rw [ofParts, if_neg hdate, if_neg (by decide), Date.toDays_ofDays]
  simp only [hsum]
  rw [if_neg (by omega)]

/-- **The text of an instant is read part by part.** -/
theorem readChars_parts {date : Date} (hyear : -262143 ≤ date.year ∧ date.year ≤ 262142)
    (hmonth : 1 ≤ date.month ∧ date.month ≤ 12) (hday : 1 ≤ date.day ∧ date.day ≤ 31)
    {hour minute second nanos : Nat} (hhour : hour ≤ 23) (hminute : minute ≤ 59)
    (hsecond : second ≤ 59) (hnanos : nanos < 1000000000) :
    readChars (yearChars date.year ++ '-' :: (padded 2 date.month ++ '-' :: (padded 2 date.day ++
      'T' :: (padded 2 hour ++ ':' :: (padded 2 minute ++ ':' :: (padded 2 second ++
        (fractionChars nanos ++ ['Z']))))))) =
      ofParts date (hour * 3600 + minute * 60 + second) nanos 0 := by
  have hdash : Text.isBlank '-' = false := rfl
  have hcolon : Text.isBlank ':' = false := rfl
  have hshift : (1 <<< 31 : Nat) = 2147483648 := rfl
  have hnoLeap : second ≠ 60 := by omega
  have hzone : offset (Text.skipBlanks ['Z']) = .ok (0, []) := rfl
  unfold readChars
  rw [year_yearChars (by omega) (by omega) (by rfl)]
  simp only [bind, Except.bind, mark_cons hdash, mark_cons hcolon,
    field_padded hmonth.1 hmonth.2 (by omega), field_padded hday.1 hday.2 (by omega),
    field_padded (Nat.zero_le hour) hhour (by omega),
    field_padded (Nat.zero_le minute) hminute (by omega),
    field_padded (Nat.zero_le second) (by omega : second ≤ 60) (by omega),
    fraction_fractionChars hnanos, hzone, hnoLeap]
  rfl

/-- **An instant is read back from its text**, if it is on the calendar and outside leap seconds. -/
theorem read_text {t : Timestamp} (hnanos : t.nanos < 1000000000)
    (hlow : -262143 ≤ (Date.ofDays (t.seconds / 86400)).year)
    (hhigh : (Date.ofDays (t.seconds / 86400)).year ≤ 262142) : read t.text = .ok t := by
  obtain ⟨hmonth, hday⟩ := Date.bounds_of_valid (Date.valid_ofDays (t.seconds / 86400))
  have htime : (((t.seconds % 86400).toNat : Nat) : Int) = t.seconds % 86400 := by omega
  have hnoLeap : ¬ 1000000000 ≤ t.nanos := by omega
  have hsum : (t.seconds % 86400).toNat / 3600 * 3600 + (t.seconds % 86400).toNat / 60 % 60 * 60 +
      (t.seconds % 86400).toNat % 60 = (t.seconds % 86400).toNat := by
    omega
  rw [read, text, String.toList_ofList, chars]
  simp only [if_neg hnoLeap, List.append_assoc, List.cons_append]
  rw [readChars_parts ⟨hlow, hhigh⟩ hmonth hday (by omega) (by omega) (by omega) hnanos, hsum]
  exact ofParts_ofDays hlow hhigh htime

example : text ⟨253402300799, 999000000⟩ = "9999-12-31T23:59:59.999Z" := by
  decide

end Timestamp
end Switchboard
