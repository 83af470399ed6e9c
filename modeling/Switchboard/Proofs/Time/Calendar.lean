import Switchboard.Time.Calendar

/-!
# Days and their dates

An era has 400 years, each from 1 March on, and falls into centuries, cycles of four years, years
and days (`EraDay`). Only the last century of an era and the other cycles of a century have their
leap day, so that a year's last day is the 366th only there. `EraDay.year_eq` says that the division
by which `Date.ofDays` finds the year agrees with this.

Every day has a date that exists (`Date.valid_ofDays`), and leads back to the day
(`Date.toDays_ofDays`).
-/

namespace Switchboard

/-- Day `n` of an era is day `e` of year `k` of cycle `q` of century `c`, all counted from 0. -/
structure EraDay (n c q k e : Int) : Prop where
  century : 0 ≤ c ∧ c ≤ 3
  cycle : 0 ≤ q ∧ q ≤ 24
  year : 0 ≤ k ∧ k ≤ 3
  day : 0 ≤ e ∧ e ≤ 365
  leap : e = 365 → k = 3 ∧ (q = 24 → c = 3)
  eq : n = 36524 * c + 1461 * q + 365 * k + e

/-- Every day of an era has its place. -/
theorem exists_eraDay {n : Int} (h0 : 0 ≤ n) (h1 : n ≤ 146096) : ∃ c q k e, EraDay n c q k e := by
  -- The last century and the last year of a cycle are one day longer, which the quotient misses.
  obtain ⟨c, hc, hclast⟩ : ∃ c, (0 ≤ c ∧ c ≤ 3 ∧ 36524 * c ≤ n) ∧ (n < 36524 * (c + 1) ∨ c = 3) :=
    ⟨min 3 (n / 36524), by omega⟩
  obtain ⟨k, hk, hklast⟩ : ∃ k, (0 ≤ k ∧ k ≤ 3 ∧ 365 * k ≤ (n - 36524 * c) % 1461) ∧
      ((n - 36524 * c) % 1461 < 365 * (k + 1) ∨ k = 3) :=
    ⟨min 3 ((n - 36524 * c) % 1461 / 365), by omega⟩
  refine ⟨c, (n - 36524 * c) / 1461, k, (n - 36524 * c) % 1461 - 365 * k, ?_, ?_, ?_, ?_, ?_, ?_⟩
  all_goals omega

namespace EraDay

variable {n c q k e : Int}

/-- The year of an era that the division finds. -/
theorem year_eq (h : EraDay n c q k e) :
    (n - n / 1460 + n / 36524 - n / 146096) / 365 = 100 * c + 4 * q + k := by
  obtain ⟨hc, hq, hk, he, hleap, heq⟩ := h
  by_cases hlast : n = 146096
  · subst hlast
    omega
  · have hera : n / 146096 = 0 := by omega
    have hcentury : n / 36524 = c := by omega
    have hcycle : n / 1460 = 25 * c + q ∧ q + 24 * c + 365 * k + e < 1460 ∨
        n / 1460 = 25 * c + q + 1 ∧ 1460 ≤ q + 24 * c + 365 * k + e := by
      omega
    rw [hera, hcentury]
    rcases hcycle with ⟨hcycle, hlt⟩ | ⟨hcycle, hge⟩
    · rw [hcycle]
      omega
    · rw [hcycle]
      omega

/-- The day of the year, with the leap days before that year taken off. -/
theorem day_eq (h : EraDay n c q k e) :
    n - (365 * (100 * c + 4 * q + k) + (100 * c + 4 * q + k) / 4 - (100 * c + 4 * q + k) / 100) =
      e := by
  obtain ⟨hc, hq, hk, he, hleap, heq⟩ := h
  have hcycles : (100 * c + 4 * q + k) / 4 = 25 * c + q := by omega
  have hcenturies : (100 * c + 4 * q + k) / 100 = c := by omega
  rw [hcycles, hcenturies]
  omega

/-- A year with a 366th day ends in the February of a leap year. -/
theorem isLeapYear (h : EraDay n c q k e) (hlast : e = 365) (era : Int) :
    Date.isLeapYear (400 * era + 100 * c + 4 * q + k + 1) = true := by
  obtain ⟨hk, hq⟩ := h.leap hlast
  have hc := h.century
  have hcycle := h.cycle
  simp only [Date.isLeapYear, ne_eq, decide_not, Bool.and_eq_true, Bool.or_eq_true,
    Bool.not_eq_true', decide_eq_true_eq, decide_eq_false_iff_not]
  omega

end EraDay

namespace Date

variable {year day : Int}

/-- The day so many days after 1 March of a year. -/
def fromMarch (year day : Int) : Date :=
  let month := (5 * day + 2) / 153
  ⟨if month < 10 then year else year + 1, (if month < 10 then month + 3 else month - 9).toNat,
    (day - (153 * month + 2) / 5 + 1).toNat⟩

theorem ofDays_eq {n c q k e : Int} (h : EraDay ((n + 719468) % 146097) c q k e) :
    ofDays n = fromMarch (400 * ((n + 719468) / 146097) + 100 * c + 4 * q + k) e := by
  have hyear := h.year_eq
  have hday := h.day_eq
  have hera : 100 * c + 4 * q + k + (n + 719468) / 146097 * 400 =
      400 * ((n + 719468) / 146097) + 100 * c + 4 * q + k := by
    omega
  obtain ⟨-, -, -, he, -, -⟩ := h
  simp only [ofDays, hyear, hday, hera, fromMarch]
  by_cases hm : (5 * e + 2) / 153 < 10
  · have hlate : ¬ (5 * e + 2) / 153 + 3 ≤ 2 := by omega
    simp only [if_pos hm, if_neg hlate]
  · have hearly : (5 * e + 2) / 153 - 9 ≤ 2 := by omega
    simp only [if_neg hm, if_pos hearly]

/-- Every day is so many days after 1 March of a year, the 366th only before a leap year's March. The
years before it have 365 days and their leap days. -/
theorem exists_fromMarch (n : Int) :
    ∃ year day, (0 ≤ day ∧ day ≤ 365) ∧ (day = 365 → isLeapYear (year + 1) = true) ∧
      ofDays n = fromMarch year day ∧
        n = 365 * year + year / 4 - year / 100 + year / 400 + day - 719468 := by
  obtain ⟨c, q, k, e, h⟩ := exists_eraDay (n := (n + 719468) % 146097) (by omega) (by omega)
  have hday := h.day_eq
  refine ⟨_, e, h.day, fun hlast => h.isLeapYear hlast _, ofDays_eq h, ?_⟩
  obtain ⟨hc, hq, hk, he, hleap, heq⟩ := h
  have hcenturies : (400 * ((n + 719468) / 146097) + 100 * c + 4 * q + k) / 100 =
      4 * ((n + 719468) / 146097) + c := by
    omega
  have hcycles : (400 * ((n + 719468) / 146097) + 100 * c + 4 * q + k) / 4 =
      100 * ((n + 719468) / 146097) + 25 * c + q := by
    omega
  have hera : (400 * ((n + 719468) / 146097) + 100 * c + 4 * q + k) / 400 =
      (n + 719468) / 146097 := by
    omega
  rw [hcenturies, hcycles, hera]
  omega

/-! ### Back to the day -/

theorem toDays_fromMarch (h0 : 0 ≤ day) (h1 : day ≤ 365) :
    (fromMarch year day).toDays =
      365 * year + year / 4 - year / 100 + year / 400 + day - 719468 := by
  have hstart : (153 * ((5 * day + 2) / 153) + 2) / 5 ≤ day := by omega
  have hday : ((day - (153 * ((5 * day + 2) / 153) + 2) / 5 + 1).toNat : Int) =
      day - (153 * ((5 * day + 2) / 153) + 2) / 5 + 1 := by
    omega
  have hera : year / 400 * 146097 + (year % 400 * 365 + year % 400 / 4 - year % 400 / 100) =
      365 * year + year / 4 - year / 100 + year / 400 := by
    omega
  simp only [toDays, fromMarch, hday]
  by_cases hm : (5 * day + 2) / 153 < 10
  · have hlate : ¬ ((5 * day + 2) / 153 + 3).toNat ≤ 2 := by omega
    have hmonth : ((((5 * day + 2) / 153 + 3).toNat : Int) + 9) % 12 = (5 * day + 2) / 153 := by
      omega
    simp only [if_pos hm, if_neg hlate]
    rw [hmonth, ← hera]
    omega
  · have hearly : ((5 * day + 2) / 153 - 9).toNat ≤ 2 := by omega
    have hmonth : ((((5 * day + 2) / 153 - 9).toNat : Int) + 9) % 12 = (5 * day + 2) / 153 := by
      omega
    simp only [if_neg hm, if_pos hearly]
    rw [show year + 1 - 1 = year by omega, hmonth, ← hera]
    omega

/-- **The date of a day leads back to the day.** -/
theorem toDays_ofDays (n : Int) : (ofDays n).toDays = n := by
  obtain ⟨year, day, ⟨h0, h1⟩, -, hdate, hn⟩ := exists_fromMarch n
  rw [hdate, toDays_fromMarch h0 h1, ← hn]

/-! ### Dates that exist -/

theorem valid_fromMarch (h0 : 0 ≤ day) (h1 : day ≤ 365)
    (hleap : day = 365 → isLeapYear (year + 1) = true) : (fromMarch year day).valid = true := by
  have hm : (5 * day + 2) / 153 = 0 ∨ (5 * day + 2) / 153 = 1 ∨ (5 * day + 2) / 153 = 2 ∨
      (5 * day + 2) / 153 = 3 ∨ (5 * day + 2) / 153 = 4 ∨ (5 * day + 2) / 153 = 5 ∨
      (5 * day + 2) / 153 = 6 ∨ (5 * day + 2) / 153 = 7 ∨ (5 * day + 2) / 153 = 8 ∨
      (5 * day + 2) / 153 = 9 ∨ (5 * day + 2) / 153 = 10 ∨ (5 * day + 2) / 153 = 11 := by
    omega
  rcases hm with hm | hm | hm | hm | hm | hm | hm | hm | hm | hm | hm | hm
  -- February is the last month, and the one whose length depends on the year.
  case inr.inr.inr.inr.inr.inr.inr.inr.inr.inr.inr =>
    by_cases hlast : day = 365
    · simp [valid, fromMarch, daysInMonth, hlast, hleap hlast]
    · simp only [valid, fromMarch, hm, daysInMonth]
      simp
      split <;> omega
  all_goals
    simp [valid, fromMarch, hm, daysInMonth]
    omega

/-- **The date of a day exists.** -/
theorem valid_ofDays (n : Int) : (ofDays n).valid = true := by
  obtain ⟨year, day, ⟨h0, h1⟩, hleap, hdate, -⟩ := exists_fromMarch n
  rw [hdate]
  exact valid_fromMarch h0 h1 hleap

/-- The bounds that hold in every month. -/
theorem bounds_of_valid {d : Date} (h : d.valid = true) :
    (1 ≤ d.month ∧ d.month ≤ 12) ∧ 1 ≤ d.day ∧ d.day ≤ 31 := by
  have hlength : daysInMonth d.year d.month ≤ 31 := by
    unfold daysInMonth
    split
    · split <;> omega
    · split <;> omega
  simp only [valid, Bool.and_eq_true, decide_eq_true_eq] at h
  omega

end Date
end Switchboard
