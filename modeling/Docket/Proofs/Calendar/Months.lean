import Docket.Calendar.Time
import Mathlib.Tactic.ByContra

/-!
# Days and months

The date of a day number is taken apart into an era of four hundred years, a year of the era and a
day of the year, with years that start in March.

* **`Date.monthIndex_mono`**, `Time.monthIndex_mono`: later days, and later times on one clock, are
  in later months; `Time.sameMonth_iff` says when two times are in one month.
-/

namespace Docket

namespace Date

/-! ## The parts of a day number -/

/-- The year within an era of the day with this number in it. -/
def yearOfEra (dayOfEra : Int) : Int :=
  (dayOfEra - dayOfEra / 1460 + dayOfEra / 36524 - dayOfEra / 146096) / 365

/-- The number of the first day of a year within its era. -/
def yearStart (year : Int) : Int := 365 * year + year / 4 - year / 100

/-- The number, within its year, of the day with this number in its era. -/
def dayOfYear (dayOfEra : Int) : Int := dayOfEra - yearStart (yearOfEra dayOfEra)

/-- The month of the day with this number in its era; March is 0. -/
def monthFromMarch (dayOfEra : Int) : Int := (5 * dayOfYear dayOfEra + 2) / 153

/-- The number of the era that a day falls in. -/
def era (n : Int) : Int := (n + epochDay) / daysPerEra

/-- The number of a day within its era. -/
def dayOfEra (n : Int) : Int := (n + epochDay) % daysPerEra

variable {d e n m : Int}

theorem dayOfEra_nonneg (n : Int) : 0 ≤ dayOfEra n := Int.emod_nonneg _ (by decide)

theorem dayOfEra_lt (n : Int) : dayOfEra n < daysPerEra := Int.emod_lt_of_pos _ (by decide)

theorem ofDayNumber_eq (n : Int) :
    let m := monthFromMarch (dayOfEra n)
    let month := if m < 10 then m + 3 else m - 9
    ofDayNumber n =
      ⟨yearOfEra (dayOfEra n) + era n * 400 + (if month ≤ 2 then 1 else 0), month.toNat,
        (dayOfYear (dayOfEra n) - (153 * m + 2) / 5 + 1).toNat⟩ := rfl

theorem yearOfEra_mono (h : 0 ≤ d) (le : d ≤ e) (h' : e < daysPerEra) :
    yearOfEra d ≤ yearOfEra e := by
  change e < 146097 at h'
  refine Int.ediv_le_ediv (by decide) ?_
  have olympiads : d - d / 1460 ≤ e - e / 1460 := by omega
  have centuries : d / 36524 ≤ e / 36524 := by omega
  obtain early | rfl : e / 146096 = 0 ∨ e = 146096 := by omega
  · have : d / 146096 = 0 := by omega
    omega
  · -- The last day of an era, which the last leap year of the era has in advance of the rule.
    obtain rfl | lt : d = 146096 ∨ d < 146096 := by omega
    · exact Int.le_refl _
    · have : d - d / 1460 ≤ 145995 := by omega
      have : d / 36524 ≤ 3 := by omega
      have : d / 146096 = 0 := by omega
      omega

theorem yearOfEra_mem (h : 0 ≤ d) (h' : d < daysPerEra) :
    0 ≤ yearOfEra d ∧ yearOfEra d ≤ 399 :=
  ⟨yearOfEra_mono (Int.le_refl 0) h h', yearOfEra_mono h (Int.le_sub_one_of_lt h') (by decide)⟩

theorem yearOfEra_yearStart : ∀ y < 400, yearOfEra (yearStart (y : Nat)) = y := by
  decide +kernel

theorem yearOfEra_before_yearStart : ∀ y < 400, yearOfEra (yearStart (y + 1 : Nat) - 1) = y := by
  decide +kernel

theorem lt_yearStart_succ (h : d < daysPerEra) {y : Nat} (hy : yearOfEra d = y)
    (lt : y + 1 < 400) : d < yearStart (y + 1 : Nat) := by
  by_contra late
  have after := yearOfEra_mono (d := yearStart (y + 1 : Nat)) (by unfold yearStart; omega)
    (by omega) h
  rw [yearOfEra_yearStart _ lt, hy] at after
  omega

theorem dayOfYear_mem (h : 0 ≤ d) (h' : d < daysPerEra) :
    0 ≤ dayOfYear d ∧ dayOfYear d ≤ 365 := by
  obtain ⟨lo, hi⟩ := yearOfEra_mem h h'
  obtain ⟨y, hy⟩ := Int.eq_ofNat_of_zero_le lo
  have long : yearStart (y + 1 : Nat) ≤ yearStart y + 366 := by unfold yearStart; omega
  unfold dayOfYear
  rw [hy]
  -- A day before its year starts would fall in the year before, and one after it in the year after.
  have start : yearStart y ≤ d := by
    by_contra early
    cases y with
    | zero => exact early h
    | succ y =>
      have before := yearOfEra_mono h (Int.le_sub_one_of_lt (Int.not_le.mp early))
        (by unfold yearStart daysPerEra; omega)
      rw [yearOfEra_before_yearStart y (by omega), hy] at before
      omega
  have stop : d ≤ yearStart y + 365 := by
    by_contra late
    change d < 146097 at h'
    obtain rfl | lt : y = 399 ∨ y + 1 < 400 := by omega
    · unfold yearStart at late
      omega
    · have next := lt_yearStart_succ h' hy lt
      omega
  omega

theorem monthFromMarch_mem (n : Int) :
    0 ≤ monthFromMarch (dayOfEra n) ∧ monthFromMarch (dayOfEra n) ≤ 11 := by
  have := dayOfYear_mem (dayOfEra_nonneg n) (dayOfEra_lt n)
  unfold monthFromMarch
  omega

/-! ## Months and days -/

theorem month_mem (n : Int) : 1 ≤ (ofDayNumber n).month ∧ (ofDayNumber n).month ≤ 12 := by
  have := monthFromMarch_mem n
  rw [ofDayNumber_eq]
  dsimp only
  split <;> omega

theorem day_mem (n : Int) : 1 ≤ (ofDayNumber n).day ∧ (ofDayNumber n).day ≤ 31 := by
  have := dayOfYear_mem (dayOfEra_nonneg n) (dayOfEra_lt n)
  rw [ofDayNumber_eq]
  dsimp only [monthFromMarch]
  omega

theorem monthIndex_ofDayNumber (n : Int) : (ofDayNumber n).monthIndex =
    12 * (400 * era n + yearOfEra (dayOfEra n)) + monthFromMarch (dayOfEra n) + 3 := by
  have := monthFromMarch_mem n
  rw [ofDayNumber_eq]
  dsimp only [monthIndex]
  split <;> split <;> omega

/-- **Later days are in later months.** -/
theorem monthIndex_mono (h : n ≤ m) : (ofDayNumber n).monthIndex ≤ (ofDayNumber m).monthIndex := by
  rw [monthIndex_ofDayNumber, monthIndex_ofDayNumber]
  have hn := monthFromMarch_mem n
  have hm := monthFromMarch_mem m
  have yn := yearOfEra_mem (dayOfEra_nonneg n) (dayOfEra_lt n)
  have ym := yearOfEra_mem (dayOfEra_nonneg m) (dayOfEra_lt m)
  have eras : era n ≤ era m := Int.ediv_le_ediv (by decide) (by omega)
  obtain lt | same := Int.lt_or_eq_of_le eras
  · omega
  · have days : dayOfEra n ≤ dayOfEra m := by
      have := Int.mul_ediv_add_emod (n + epochDay) daysPerEra
      have := Int.mul_ediv_add_emod (m + epochDay) daysPerEra
      unfold era at same
      unfold dayOfEra
      rw [same] at *
      omega
    have years := yearOfEra_mono (dayOfEra_nonneg n) days (dayOfEra_lt m)
    obtain lt | same' := Int.lt_or_eq_of_le years
    · omega
    · have : monthFromMarch (dayOfEra n) ≤ monthFromMarch (dayOfEra m) := by
        unfold monthFromMarch dayOfYear
        rw [same']
        omega
      omega

theorem monthIndex_eq_iff : (ofDayNumber n).monthIndex = (ofDayNumber m).monthIndex ↔
    (ofDayNumber n).year = (ofDayNumber m).year ∧
      (ofDayNumber n).month = (ofDayNumber m).month := by
  have := month_mem n
  have := month_mem m
  unfold monthIndex
  omega

end Date

namespace Time

variable {t now : Time}

theorem monthIndex_mono (offset : t.offset = now.offset) (le : t.instant ≤ now.instant) :
    t.date.monthIndex ≤ now.date.monthIndex := by
  refine Date.monthIndex_mono (Int.ediv_le_ediv (by decide) ?_)
  omega

theorem sameMonth_iff (offset : t.offset = now.offset) :
    t.SameMonth now ↔ t.date.monthIndex = now.date.monthIndex := by
  rw [SameMonth, show t.atOffset now.offset = t by rw [← offset]; rfl]
  exact Date.monthIndex_eq_iff.symm

end Time

end Docket
