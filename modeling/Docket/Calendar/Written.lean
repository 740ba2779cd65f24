import Docket.Calendar.Time
import Docket.Text.Blank

/-!
# Dates and times as text

* `Date.text`: `YYYY-MM-DD`; a year outside `0` to `9999` carries a sign;
* `Time.text`: the date, `T`, `HH:MM:SS`, the fraction in the fewest of 0, 3, 6 or 9 digits that is
  exact, then `Z` or the offset in hours and minutes;
* `Time.read?`: reads such a text, and also one with blanks in front of numbers and around
  separators, short numbers, a blank or `t` between date and time, or `UTC` for the offset;
* `Date.read?`: reads a year, month and day between `-` signs, with the same freedom.
-/

namespace Docket

/-! ## Writing -/

namespace Date

/-- A year: four digits, and a sign unless it is within `0` to `9999`. -/
def yearText (year : Int) : List Char :=
  if 0 ≤ year ∧ year ≤ 9999 then Decimal.padded 4 year.toNat
  else (if year < 0 then '-' else '+') :: Decimal.padded 4 year.natAbs

/-- Year, month and day with `-` between them. -/
def chars (d : Date) : List Char :=
  yearText d.year ++ '-' :: Decimal.padded 2 d.month ++ '-' :: Decimal.padded 2 d.day

/-- The date as text. -/
def text (d : Date) : String := String.ofList d.chars

end Date

namespace Time

/-- The fraction of a second, in groups of three digits. -/
def fractionText (nanos : Nat) : List Char :=
  if nanos = 0 then []
  else if nanos % 1000000 = 0 then '.' :: Decimal.padded 3 (nanos / 1000000)
  else if nanos % 1000 = 0 then '.' :: Decimal.padded 6 (nanos / 1000)
  else '.' :: Decimal.padded 9 nanos

/-- The offset: `Z` for zero, else its sign and its hours and minutes, rounded to the minute. -/
def offsetText (offset : Int) : List Char :=
  if offset = 0 then ['Z']
  else
    let minutes := (offset.natAbs + 30) / 60
    (if offset < 0 then '-' else '+') ::
      (Decimal.padded 2 (minutes / 60) ++ ':' :: Decimal.padded 2 (minutes % 60))

/-- The time as text. -/
def text (t : Time) : String :=
  let second := t.secondOfDay % 60 + t.nanos / 1000000000
  String.ofList (t.date.chars ++ 'T' :: Decimal.padded 2 (t.secondOfDay / 3600) ++
    ':' :: Decimal.padded 2 (t.secondOfDay / 60 % 60) ++ ':' :: Decimal.padded 2 second ++
    fractionText (t.nanos % 1000000000) ++ offsetText t.offset)

end Time

/-! ## Reading -/

namespace Scan

/-- The number in the longest run of at most `most` digits, after blanks. -/
def number (most : Nat) (cs : List Char) : Option (Nat × List Char) :=
  let cs := Blank.skip cs
  let run := (cs.take most).takeWhile Char.isDigit
  (Decimal.read? run).map (·, cs.drop run.length)

/-- The number in all the digits in front, of which there is one. -/
def allDigits (cs : List Char) : Option (Nat × List Char) :=
  (Decimal.read? (cs.takeWhile Char.isDigit)).map (·, cs.dropWhile Char.isDigit)

/-- A year, after blanks: four digits at most, or any number of them behind a sign. -/
def year (cs : List Char) : Option (Int × List Char) :=
  match Blank.skip cs with
  | '-' :: r => (allDigits r).map fun (n, r) => (-n, r)
  | '+' :: r => (allDigits r).map fun (n, r) => (n, r)
  | r => (number 4 r).map fun (n, r) => (n, r)

/-- The character `c`, after blanks. -/
def symbol (c : Char) (cs : List Char) : Option (List Char) :=
  match Blank.skip cs with
  | d :: r => if d = c then some r else none
  | [] => none

/-- Year, month and day with `-` between them. -/
def date (cs : List Char) : Option (Date × List Char) := do
  let (y, cs) ← year cs
  let (m, cs) ← number 2 (← symbol '-' cs)
  let (d, cs) ← number 2 (← symbol '-' cs)
  return (← Date.of? y m d, cs)

/-- Nanoseconds behind a point, if there is one; digits past the ninth are dropped. -/
def fraction (cs : List Char) : Option (Nat × List Char) :=
  match cs with
  | '.' :: r =>
    let run := r.takeWhile Char.isDigit
    if run.isEmpty then none
    else (Decimal.read? ((run.take 9).rightpad 9 '0')).map (·, r.drop run.length)
  | r => some (0, r)

/-- Two digits with nothing in front. -/
def twoDigits (cs : List Char) : Option (Nat × List Char) :=
  match cs with
  | a :: b :: r => (Decimal.read? [a, b]).map (·, r)
  | _ => none

/-- An offset from zero in seconds: `Z`, `UTC`, or a sign, hours and minutes. -/
def offset (cs : List Char) : Option (Int × List Char) := do
  let cs := Blank.skip cs
  if (cs.take 3).map Char.toUpper = ['U', 'T', 'C'] then return (0, cs.drop 3)
  match cs with
  | [] => none
  | sign :: r =>
    if sign = 'Z' ∨ sign = 'z' then return (0, r)
    let (hours, r) ← twoDigits (← if sign = '+' ∨ sign = '-' ∨ sign = '−' then some r else none)
    let (minutes, r) ← twoDigits (r.dropWhile fun c => c = ':' || isBlank c)
    let seconds : Int := hours * 3600 + minutes * 60
    if 59 < minutes ∨ 86400 ≤ seconds then none
    else return (if sign = '+' then seconds else -seconds, r)

end Scan

/-- The date a text gives, with nothing but blanks after it. -/
def Date.read? (s : String) : Option Date := do
  let (d, r) ← Scan.date s.toList
  if (Blank.skip r).isEmpty then some d else none

/-- The time a text gives, with nothing but blanks after it. The second may be 60. -/
def Time.read? (s : String) : Option Time := do
  let (date, cs) ← Scan.date s.toList
  let cs ← match cs with
    | c :: r => if c = 'T' ∨ c = 't' ∨ c = ' ' then some r else none
    | [] => none
  let (hour, cs) ← Scan.number 2 cs
  let (minute, cs) ← Scan.number 2 (← Scan.symbol ':' cs)
  let (second, cs) ← Scan.number 2 (← Scan.symbol ':' cs)
  let (nanos, cs) ← Scan.fraction cs
  let (offset, cs) ← Scan.offset cs
  if !(Blank.skip cs).isEmpty ∨ 23 < hour ∨ 59 < minute ∨ 60 < second then none
  else if second = 60 then
    Time.ofLocal? date (hour * 3600 + minute * 60 + 59) (nanos + 1000000000) offset
  else Time.ofLocal? date (hour * 3600 + minute * 60 + second) nanos offset

example : (Time.read? "2025-03-14T23:59:60.25+05:45").map Time.text =
    some "2025-03-14T23:59:60.250+05:45" := by decide +kernel
example : Date.read? " 25 - 3-4 " = some ⟨25, 3, 4⟩ := by decide +kernel
example : Time.read? "2025-02-29T00:00:00Z" = none := by decide +kernel

end Docket
