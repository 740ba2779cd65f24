import Docket.Proofs.Calendar.Months

/-!
# Days counted and dated

* `Date.isLeap_of_dayOfYear`, `Date.day_le_daysIn`: a year that starts in March has a day 366 only
  before the March of a leap year, and no month has more days than it should;
* **`Date.dayNumber_ofDayNumber`**: the date of a day has the number of that day.
-/

namespace Docket.Date

variable {d n m : Int}

/-! ## The length of a month -/

/-- A year that starts in March has a last day 365 only before a leap year's March. -/
theorem isLeap_of_dayOfYear (h : 0 ≤ d) (h' : d < daysPerEra) (last : dayOfYear d = 365)
    (e : Int) : isLeap (yearOfEra d + e * 400 + 1) = true := by
  obtain ⟨lo, hi⟩ := yearOfEra_mem h h'
  obtain ⟨y, hy⟩ := Int.eq_ofNat_of_zero_le lo
  unfold dayOfYear at last
  rw [hy] at last hi ⊢
  simp only [isLeap, Bool.and_eq_true, Bool.or_eq_true, beq_iff_eq, bne_iff_ne, ne_eq]
  obtain rfl | lt : y = 399 ∨ y + 1 < 400 := by omega
  · omega
  · have next := lt_yearStart_succ h' hy lt
    unfold yearStart at last next
    omega

/-- From March to January the rule that finds the month gives it the days that it has. -/
theorem day_le_of_lt {k : Int} (year : Int) (lo : 0 ≤ m) (hi : m < 11)
    (hm : (5 * k + 2) / 153 = m) : (k - (153 * m + 2) / 5 + 1).toNat ≤
      daysIn year (if m < 10 then m + 3 else m - 9).toNat := by
  have cases : m = 0 ∨ m = 1 ∨ m = 2 ∨ m = 3 ∨ m = 4 ∨ m = 5 ∨ m = 6 ∨ m = 7 ∨ m = 8 ∨ m = 9 ∨
    m = 10 := by omega
  rcases cases with rfl | rfl | rfl | rfl | rfl | rfl | rfl | rfl | rfl | rfl | rfl <;>
    simp only [Int.reduceLT, if_true, if_false, Int.reduceAdd, Int.reduceSub, Int.reduceToNat,
      daysIn] <;> omega

theorem day_le_daysIn (n : Int) :
    (ofDayNumber n).day ≤ daysIn (ofDayNumber n).year (ofDayNumber n).month := by
  have days := dayOfYear_mem (dayOfEra_nonneg n) (dayOfEra_lt n)
  have months := monthFromMarch_mem n
  rw [ofDayNumber_eq]
  dsimp only
  obtain lt | last : monthFromMarch (dayOfEra n) < 11 ∨ monthFromMarch (dayOfEra n) = 11 := by
    omega
  · exact day_le_of_lt _ months.1 lt rfl
  · -- February comes last and takes what is left of the year.
    rw [last]
    change _ ≤ if isLeap (yearOfEra (dayOfEra n) + era n * 400 + 1) then 29 else 28
    by_cases long : dayOfYear (dayOfEra n) = 365
    · rw [if_pos (isLeap_of_dayOfYear (dayOfEra_nonneg n) (dayOfEra_lt n) long _), long]
      decide
    · split <;> omega

/-! ## There and back -/

/-- **The date of a day has the number of that day.** -/
theorem dayNumber_ofDayNumber (n : Int) : (ofDayNumber n).dayNumber = n := by
  have years := yearOfEra_mem (dayOfEra_nonneg n) (dayOfEra_lt n)
  have months := monthFromMarch_mem n
  have days := dayOfYear_mem (dayOfEra_nonneg n) (dayOfEra_lt n)
  have whole : era n * daysPerEra + dayOfEra n = n + epochDay := by
    rw [Int.mul_comm]
    exact Int.mul_ediv_add_emod (n + epochDay) daysPerEra
  have parts : dayOfEra n = yearStart (yearOfEra (dayOfEra n)) + dayOfYear (dayOfEra n) := by
    unfold dayOfYear
    omega
  have first : (153 * monthFromMarch (dayOfEra n) + 2) / 5 ≤ dayOfYear (dayOfEra n) := by
    unfold monthFromMarch
    omega
  rw [ofDayNumber_eq]
  unfold dayNumber
  dsimp only
  unfold yearStart at parts
  generalize monthFromMarch (dayOfEra n) = m at *
  generalize dayOfYear (dayOfEra n) = k at *
  generalize yearOfEra (dayOfEra n) = y at *
  generalize era n = e at *
  -- Each part of the date gives back the number it was made from.
  have year : ∀ month : Int, (if month.toNat ≤ 2 then
      (y + e * 400 + if month ≤ 2 then 1 else 0) - 1
      else y + e * 400 + if month ≤ 2 then 1 else 0) = y + e * 400 := by
    intro month
    split <;> split <;> omega
  have month : (((if m < 10 then m + 3 else m - 9).toNat : Int) + 9) % 12 = m := by
    split <;> omega
  have day : ((k - (153 * m + 2) / 5 + 1).toNat : Int) = k - (153 * m + 2) / 5 + 1 := by omega
  have era : (y + e * 400) / 400 = e := by omega
  have yearOfEra : (y + e * 400) % 400 = y := by omega
  rw [year, month, day, era, yearOfEra]
  omega

theorem valid_ofDayNumber (lo : firstYear ≤ (ofDayNumber n).year)
    (hi : (ofDayNumber n).year ≤ lastYear) : (ofDayNumber n).Valid :=
  ⟨lo, hi, (month_mem n).1, (month_mem n).2, (day_mem n).1, day_le_daysIn n⟩

theorem year_of_near (near : (n - m).natAbs ≤ 1) (lo : 0 ≤ (ofDayNumber n).year)
    (hi : (ofDayNumber n).year ≤ 9999) :
    firstYear ≤ (ofDayNumber m).year ∧ (ofDayNumber m).year ≤ lastYear := by
  have yn := yearOfEra_mem (dayOfEra_nonneg n) (dayOfEra_lt n)
  have ym := yearOfEra_mem (dayOfEra_nonneg m) (dayOfEra_lt m)
  have eras : (era n - era m).natAbs ≤ 1 := by
    unfold era daysPerEra
    omega
  rw [ofDayNumber_eq] at lo hi ⊢
  dsimp only at lo hi ⊢
  unfold firstYear lastYear
  constructor <;> split at lo <;> split <;> omega

end Docket.Date
