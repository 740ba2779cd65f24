import Docket.Calendar.Date

/-!
# Points in time

A time is an instant and the offset of the clock that showed it. A counter's period is read off the
date on that clock.

* `Time`, `Time.atOffset`: the instant with its offset, and the same instant on another clock;
* `Time.date`, `Time.utcDate`: the date on the clock, and the date at offset zero;
* `Time.ofLocal?`: the time at which a clock shows a date and a second of the day;
* `Time.SameMonth`: two times fall in one calendar month of the second one's clock.
-/

namespace Docket

/-- Seconds since 1 January 1970 at offset zero, nanoseconds on top, and the offset in seconds.
A leap second shows as a billion nanoseconds or more. -/
structure Time where
  instant : Int
  nanos : Nat
  offset : Int
deriving DecidableEq, Repr

namespace Time

/-- Seconds in a day. -/
def perDay : Int := 86400

/-- The same instant on a clock with another offset. -/
def atOffset (t : Time) (offset : Int) : Time := { t with offset }

/-- The date on the time's own clock. -/
def date (t : Time) : Date := Date.ofDayNumber ((t.instant + t.offset) / perDay)

/-- The second of the day on the time's own clock. -/
def secondOfDay (t : Time) : Nat := ((t.instant + t.offset) % perDay).toNat

/-- The date at offset zero. -/
def utcDate (t : Time) : Date := (t.atOffset 0).date

/-- When a clock `offset` seconds ahead shows this date, second of the day and nanoseconds, if the
date at offset zero still has a year on the calendar. -/
def ofLocal? (date : Date) (second nanos : Nat) (offset : Int) : Option Time :=
  let t : Time := ⟨date.dayNumber * perDay + second - offset, nanos, offset⟩
  if Date.firstYear ≤ t.utcDate.year ∧ t.utcDate.year ≤ Date.lastYear then some t else none

/-- Whether `t` falls in `now`'s calendar month, both on `now`'s clock. -/
def SameMonth (t now : Time) : Prop :=
  (t.atOffset now.offset).date.year = now.date.year ∧
    (t.atOffset now.offset).date.month = now.date.month

instance (t now : Time) : Decidable (t.SameMonth now) := by unfold SameMonth; infer_instance

end Time

end Docket
