import Mathlib.Tactic.Common
import Mathlib.Tactic.IntervalCases
import FeatureBatch.Time.Calendar

/-!
The day that a count of days leads to is a day of the calendar, and it has this count. A day is
found in its era through the century, the four years in the century and the year of these.
-/

namespace FeatureBatch.Date

/-! ### Years of an era -/

/-- The day `e` of an era is the day `d` of the year `r` of the four years `q` of the century `c`. A
year has a day 365 only where it ends with a leap day. -/
structure InEra (e c q r d : Nat) : Prop where
  sum : e = 36524 * c + 1461 * q + 365 * r + d
  century : c < 4
  four : q < 25
  year : r < 4
  day : d ≤ 365
  leap : d = 365 → r = 3 ∧ (q = 24 → c = 3)

lemma exists_inEra {e : Nat} (h : e < 146097) : ∃ c q r d, InEra e c q r d := by
  obtain ⟨c, hc⟩ : ∃ c, c = min (e / 36524) 3 := ⟨_, rfl⟩
  obtain ⟨q, hq⟩ : ∃ q, q = (e - 36524 * c) / 1461 := ⟨_, rfl⟩
  obtain ⟨r, hr⟩ : ∃ r, r = min ((e - 36524 * c - 1461 * q) / 365) 3 := ⟨_, rfl⟩
  exact ⟨c, q, r, e - 36524 * c - 1461 * q - 365 * r, by omega, by omega, by omega, by omega,
    by omega, by omega⟩

lemma daysBeforeYear_eq {c q r : Nat} (hq : q < 25) (hr : r < 4) :
    daysBeforeYear (100 * c + 4 * q + r) = 36524 * c + 1461 * q + 365 * r := by
  unfold daysBeforeYear
  omega

/-- The divisions that find the year take off a day for every four years, and put one back for every
century. -/
lemma yearOfEra_eq {e c q r d : Nat} (h : InEra e c q r d) :
    yearOfEra e = 100 * c + 4 * q + r := by
  obtain ⟨rfl, hc, hq, hr, hd, leap⟩ := h
  by_cases last : 1461 * q + 365 * r + d = 36524
  · obtain ⟨rfl, rfl, rfl, rfl⟩ : c = 3 ∧ q = 24 ∧ r = 3 ∧ d = 365 := by omega
    decide
  have centuries : (36524 * c + 1461 * q + 365 * r + d) / 36524 = c := by omega
  have eras : (36524 * c + 1461 * q + 365 * r + d) / 146096 = 0 := by omega
  obtain ⟨k, hk⟩ : ∃ k, (24 * c + q + 365 * r + d) / 1460 = k := ⟨_, rfl⟩
  have fours : (36524 * c + 1461 * q + 365 * r + d) / 1460 = 25 * c + q + k := by omega
  have carried : k ≤ d ∧ d < k + 365 := by omega
  have days : 36524 * c + 1461 * q + 365 * r + d - (25 * c + q + k) + c - 0 =
      365 * (100 * c + 4 * q + r) + (d - k) := by omega
  rw [yearOfEra, fours, centuries, eras, days]
  omega

/-! ### Days of a year -/

/-- The month of the day `d` of a year, counted from March as 0. -/
def monthOf (d : Nat) : Nat := (5 * d + 2) / 153

/-- The day `d` of a year that begins in March. -/
def ofYearDay (year : Int) (d : Nat) : Date :=
  let month := if monthOf d < 10 then monthOf d + 3 else monthOf d - 9
  ⟨if month ≤ 2 then year + 1 else year, month, d - daysBeforeMonth (monthOf d) + 1⟩

lemma monthOf_spec {d : Nat} (hd : d ≤ 365) :
    monthOf d < 12 ∧ daysBeforeMonth (monthOf d) ≤ d ∧ d < daysBeforeMonth (monthOf d + 1) := by
  unfold monthOf daysBeforeMonth
  omega

lemma ofYearDay_of_lt (year : Int) {d : Nat} (h : monthOf d < 10) :
    ofYearDay year d = ⟨year, monthOf d + 3, d - daysBeforeMonth (monthOf d) + 1⟩ := by
  rw [ofYearDay, if_pos h, if_neg (by omega)]

lemma ofYearDay_of_le (year : Int) {d : Nat} (h : 10 ≤ monthOf d) (hd : d ≤ 365) :
    ofYearDay year d = ⟨year + 1, monthOf d - 9, d - daysBeforeMonth (monthOf d) + 1⟩ := by
  have := (monthOf_spec hd).1
  simp only [ofYearDay, if_neg (by omega : ¬ monthOf d < 10),
    if_pos (by omega : monthOf d - 9 ≤ 2)]

lemma toDays_ofYearDay (era : Int) {y d : Nat} (hy : y < 400) (hd : d ≤ 365) :
    toDays (ofYearDay (era * 400 + y) d) =
      era * 146097 + (daysBeforeYear y + d : Nat) - 719468 := by
  obtain ⟨small, before, -⟩ := monthOf_spec hd
  have eras : (era * 400 + y) / 400 = era := by omega
  have ofEra : ((era * 400 + y) % 400).toNat = y := by omega
  rcases Nat.lt_or_ge (monthOf d) 10 with early | late
  · rw [ofYearDay_of_lt _ early]
    simp only [toDays, if_neg (by omega : ¬ monthOf d + 3 ≤ 2), eras, ofEra, Nat.add_sub_cancel]
    omega
  · rw [ofYearDay_of_le _ late hd]
    simp only [toDays, if_pos (by omega : monthOf d - 9 ≤ 2), add_sub_cancel_right, eras, ofEra,
      Nat.sub_add_cancel (by omega : 9 ≤ monthOf d), Nat.add_sub_cancel]
    omega

lemma isValid_ofYearDay {year : Int} {d : Nat}
    (hd : d < 365 ∨ d = 365 ∧ isLeapYear (year + 1) = true) :
    (ofYearDay year d).isValid = true := by
  obtain ⟨small, before, after⟩ := monthOf_spec (by omega : d ≤ 365)
  have february : d + 1 ≤ 337 + daysInMonth (year + 1) 2 := by
    rcases hd with short | ⟨rfl, leap⟩
    · simp only [daysInMonth, if_true]
      split <;> omega
    · simp [daysInMonth, leap]
  -- the day of the month gets a name, as differences of such numerals are slow to compare
  obtain ⟨k, hk⟩ := Nat.exists_eq_add_of_le before
  have day : d - daysBeforeMonth (monthOf d) = k := by omega
  rcases Nat.lt_or_ge (monthOf d) 10 with early | late
  · rw [ofYearDay_of_lt _ early, day]
    generalize monthOf d = m at *
    unfold daysBeforeMonth at hk after
    interval_cases m <;> simp [isValid, daysInMonth] <;> omega
  · rw [ofYearDay_of_le _ late (by omega), day]
    generalize monthOf d = m at *
    unfold daysBeforeMonth at hk after
    obtain rfl | rfl : m = 10 ∨ m = 11 := by omega
    · simp [isValid, daysInMonth]
      omega
    · simp only [isValid, Bool.and_eq_true, decide_eq_true_eq, Nat.reduceSub]
      omega

lemma bounds_of_isValid {d : Date} (h : d.isValid = true) :
    1 ≤ d.month ∧ d.month ≤ 12 ∧ 1 ≤ d.day ∧ d.day ≤ 31 := by
  have most : daysInMonth d.year d.month ≤ 31 := by
    unfold daysInMonth
    grind
  simp only [isValid, Bool.and_eq_true, decide_eq_true_eq] at h
  omega

/-! ### Counting days -/

lemma ofDays_eq (n : Int) : ∃ c q r d, InEra ((n + 719468) % 146097).toNat c q r d ∧
    ofDays n = ofYearDay ((n + 719468) / 146097 * 400 + (100 * c + 4 * q + r : Nat)) d := by
  obtain ⟨c, q, r, d, day⟩ := exists_inEra (e := ((n + 719468) % 146097).toNat) (by omega)
  refine ⟨c, q, r, d, day, ?_⟩
  have ofYear : ((n + 719468) % 146097).toNat - daysBeforeYear (100 * c + 4 * q + r) = d := by
    rw [daysBeforeYear_eq day.four day.year, day.sum]
    omega
  simp only [ofDays, yearOfEra_eq day, ofYear]
  rfl

theorem toDays_ofDays (n : Int) : toDays (ofDays n) = n := by
  obtain ⟨c, q, r, d, day, eq⟩ := ofDays_eq n
  have year : 100 * c + 4 * q + r < 400 := by
    have := day.century
    have := day.four
    have := day.year
    omega
  rw [eq, toDays_ofYearDay _ year day.day, daysBeforeYear_eq day.four day.year, ← day.sum]
  omega

/-- **The day of a count is in the calendar**: a year that ends with a day 365 ends in the February
of a leap year. -/
theorem isValid_ofDays (n : Int) : (ofDays n).isValid = true := by
  obtain ⟨c, q, r, d, ⟨-, hc, hq, hr, hd, leap⟩, eq⟩ := ofDays_eq n
  rw [eq]
  refine isValid_ofYearDay ?_
  by_cases last : d = 365
  · obtain ⟨rfl, century⟩ := leap last
    refine .inr ⟨last, ?_⟩
    simp only [isLeapYear, Bool.and_eq_true, Bool.or_eq_true, decide_eq_true_eq]
    omega
  · exact .inl (by omega)

end FeatureBatch.Date
