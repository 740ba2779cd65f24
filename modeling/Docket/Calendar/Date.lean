import Docket.Text.Decimal

/-!
# Dates

The proleptic Gregorian calendar, with years below zero and above `9999`.

* `Date`, `Date.Valid`, `Date.of?`: a date, whether it is on the calendar, and checked construction;
* `Date.dayNumber`, `Date.ofDayNumber`: days since 1 January 1970 and back;
* `Date.dayKey`, `Date.monthKey`: the stamps `YYMMDD` and `YYMM`, whose year is two digits.
-/

namespace Docket

/-- A year, a month from 1 and a day from 1. -/
structure Date where
  year : Int
  month : Nat
  day : Nat
deriving DecidableEq, Repr

namespace Date

/-- The first and the last year a date may have. -/
def firstYear : Int := -262143

@[inherit_doc firstYear]
def lastYear : Int := 262142

/-- Whether `year` has a 29 February. -/
def isLeap (year : Int) : Bool := year % 4 == 0 && (year % 100 != 0 || year % 400 == 0)

/-- The number of days in a month. -/
def daysIn (year : Int) (month : Nat) : Nat :=
  match month with
  | 2 => if isLeap year then 29 else 28
  | 4 | 6 | 9 | 11 => 30
  | _ => 31

/-- Whether the date is on the calendar. -/
def Valid (d : Date) : Prop :=
  firstYear ≤ d.year ∧ d.year ≤ lastYear ∧ 1 ≤ d.month ∧ d.month ≤ 12 ∧ 1 ≤ d.day ∧
    d.day ≤ daysIn d.year d.month

instance (d : Date) : Decidable d.Valid := by unfold Valid; infer_instance

/-- The date with these parts, if it is on the calendar. -/
def of? (year : Int) (month day : Nat) : Option Date :=
  if (Date.mk year month day).Valid then some ⟨year, month, day⟩ else none

/-! ## Counting days -/

/-- Days from 1 March of year 0 to 1 January 1970. -/
def epochDay : Int := 719468

/-- Days in four hundred years. -/
def daysPerEra : Int := 146097

/-- Days since 1 January 1970. Years start in March here, so that a leap day comes last. -/
def dayNumber (d : Date) : Int :=
  let year := if d.month ≤ 2 then d.year - 1 else d.year
  let era := year / 400
  let yearOfEra := year % 400
  let monthFromMarch := ((d.month : Int) + 9) % 12
  let dayOfYear := (153 * monthFromMarch + 2) / 5 + d.day - 1
  era * daysPerEra + (yearOfEra * 365 + yearOfEra / 4 - yearOfEra / 100 + dayOfYear) - epochDay

/-- The date that many days after 1 January 1970. -/
def ofDayNumber (n : Int) : Date :=
  let era := (n + epochDay) / daysPerEra
  let dayOfEra := (n + epochDay) % daysPerEra
  let yearOfEra := (dayOfEra - dayOfEra / 1460 + dayOfEra / 36524 - dayOfEra / 146096) / 365
  let dayOfYear := dayOfEra - (365 * yearOfEra + yearOfEra / 4 - yearOfEra / 100)
  let monthFromMarch := (5 * dayOfYear + 2) / 153
  let day := dayOfYear - (153 * monthFromMarch + 2) / 5 + 1
  let month := if monthFromMarch < 10 then monthFromMarch + 3 else monthFromMarch - 9
  let year := yearOfEra + era * 400 + if month ≤ 2 then 1 else 0
  ⟨year, month.toNat, day.toNat⟩

/-- Months since year 0; equal for two dates exactly when they share a calendar month. -/
def monthIndex (d : Date) : Int := d.year * 12 + d.month

/-! ## Stamps -/

/-- The last two digits of the year, counted upwards also below year 0. -/
def shortYear (d : Date) : Nat := (d.year % 100).toNat

/-- The stamp `YYMM`. -/
def monthKey (d : Date) : String :=
  String.ofList (Decimal.padded 2 d.shortYear ++ Decimal.padded 2 d.month)

/-- The stamp `YYMMDD`. -/
def dayKey (d : Date) : String :=
  String.ofList (Decimal.padded 2 d.shortYear ++ Decimal.padded 2 d.month ++ Decimal.padded 2 d.day)

example : ofDayNumber (dayNumber ⟨2024, 2, 29⟩) = ⟨2024, 2, 29⟩ := by decide
example : ofDayNumber (-1) = ⟨1969, 12, 31⟩ := by decide
example : (Date.mk (-1) 12 31).dayKey = "991231" := by decide

end Date

end Docket
