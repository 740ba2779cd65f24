import Docket.Calendar.Time

/-!
# Time zones

A zone's clocks keep one offset, or change twice a year between two.

* `YearDay`, `YearDay.dayNumber`: the day of a year on which clocks change;
* `Change`, `Zone`: a change of the clocks, and a zone;
* `Zone.offsetAt`: the offset of a zone's clocks at an instant;
* **`Zone.offsetsFor`**, `Zone.noon?`: the offsets at which a zone's clocks show a date and a time,
  of which there are none in a gap and two where an hour comes twice; and noon of a date.
-/

namespace Docket

/-! ## Days of a year -/

/-- A day that every year has. -/
inductive YearDay where
  /-- The `week`-th such day of the week in a month, the last one for 5. Sunday is 0. -/
  | weekday (month week day : Nat)
  /-- The day with this number from 1, not counting 29 February. -/
  | fixed (n : Nat)
  /-- The day with this number from 0, counting 29 February. -/
  | counted (n : Nat)
deriving DecidableEq, Repr

namespace YearDay

/-- The days of a year before each month. -/
def daysBefore (year : Int) : List Nat :=
  (List.range 12).map fun m => (List.range m).foldl (fun n k => n + Date.daysIn year (k + 1)) 0

/-- The month and the day in it of the day with number `n` from 0. One past the end of the year is
a further day of December. -/
def inMonth (year : Int) (n : Nat) : Nat × Nat :=
  let before := (daysBefore year).takeWhile (· ≤ n)
  (before.length, n - before.getLastD 0 + 1)

/-- The month and the day in it. -/
def monthDay (year : Int) : YearDay → Nat × Nat
  | .weekday month week day =>
    let first := ((Date.mk year month 1).dayNumber + 4) % 7
    let n := 1 + ((day - first) % 7).toNat + (week - 1) * 7
    (month, if Date.daysIn year month < n then n - 7 else n)
  | .fixed n => inMonth 1 (n - 1)
  | .counted n => inMonth year n

/-- Days since 1 January 1970. -/
def dayNumber (year : Int) (d : YearDay) : Int :=
  let (month, day) := d.monthDay year
  (Date.mk year month 1).dayNumber + day - 1

end YearDay

/-! ## Zones -/

/-- A change of the clocks: the day, and the second of it on the clocks until then. -/
structure Change where
  day : YearDay
  second : Nat
deriving DecidableEq, Repr

/-- When the clocks change in a year, in seconds since 1970 on the clocks until then. -/
def Change.inYear (year : Int) (c : Change) : Int := c.day.dayNumber year * Time.perDay + c.second

/-- The offsets of clocks, in seconds ahead of offset zero. -/
inductive Zone where
  | fixed (offset : Int)
  /-- Clocks change to the summer offset and back every year. -/
  | alternating (standard summer : Int) (toSummer toStandard : Change)
deriving DecidableEq, Repr

namespace Zone

/-- Whether an instant lies between two changes of one year, or of the year before or after. -/
def between (year : Int) (starts ends : Int → Int) (instant : Int) : Bool :=
  [year - 1, year, year + 1].any fun y => decide (starts y ≤ instant ∧ instant < ends y)

/-- The offset at an instant. -/
def offsetAt (instant : Int) : Zone → Int
  | .fixed offset => offset
  | .alternating standard summer toSummer toStandard =>
    let year := (Date.ofDayNumber (instant / Time.perDay)).year
    let starts (y : Int) : Int := toSummer.inYear y - standard
    let ends (y : Int) : Int := toStandard.inYear y - summer
    let inSummer :=
      if starts year ≤ ends year then between year starts ends instant
      else !between year ends starts instant
    if inSummer then summer else standard

/-- The offsets at which clocks show a moment of a year in which they go from `outer` to `inner` at
`first` and back at `second`. All three moments are as the clocks show them. -/
def offsetsIn (outer inner first second moment : Int) : List Int :=
  let jump := inner - outer
  if outer ≤ inner then
    if moment ≤ first then [outer]
    else if moment < first + jump then []
    else if moment < second - jump then [inner]
    else if moment ≤ second then [outer, inner]
    else [outer]
  else
    if moment < first + jump then [outer]
    else if moment ≤ first then [inner, outer]
    else if moment < second then [inner]
    else if moment < second - jump then []
    else [outer]

/-- The offsets at which the clocks show a date and a second of the day, the smaller one first. The
change in the earlier month is the first of the year. -/
def offsetsFor (date : Date) (second : Nat) : Zone → List Int
  | .fixed offset => [offset]
  | .alternating standard summer toSummer toStandard =>
    let moment := date.dayNumber * Time.perDay + second
    let starts := toSummer.inYear date.year
    let ends := toStandard.inYear date.year
    if standard = summer then [standard]
    else if (toSummer.day.monthDay date.year).1 < (toStandard.day.monthDay date.year).1 then
      offsetsIn standard summer starts ends moment
    else offsetsIn summer standard ends starts moment

/-- Noon of a date on a clock, whose offset is less than a day. -/
def noonAt? (offset : Int) (date : Date) : Option Time :=
  if offset.natAbs < 86400 then Time.ofLocal? date 43200 0 offset else none

/-- Noon of a date, the later one if there are two. It is missing where the clocks skip it or one of
two is not on the calendar. -/
def noon? (z : Zone) (date : Date) : Option Time :=
  ((z.offsetsFor date 43200).mapM (noonAt? · date)).bind List.head?

end Zone

end Docket
