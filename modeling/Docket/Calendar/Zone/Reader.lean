import Docket.Calendar.Zone
import Docket.Text.Decimal

/-!
# The text of a time zone

A zone is written as a name and the hours, and perhaps minutes and seconds, by which its clocks are
*behind* offset zero, such as `NPT-5:45`. The name and the offset of the summer clocks may follow,
with the two changes of the year, such as `CET-1CEST,M3.5.0,M10.5.0/3`.

* `Zone.afterName?`, `Zone.behind?`, `Zone.yearDay?`, `Zone.change?`: the parts, each with what
  follows it;
* **`Zone.read?`**: the zone of a text, which may stand between blanks;
* `Zone.ofText`: the same, with offset zero for what cannot be read.
-/

namespace Docket.Zone

/-- Whether a zone may be called so: three to seven letters, digits and signs. -/
def isName (cs : List Char) : Bool :=
  3 ≤ cs.length && cs.length ≤ 7 && cs.all fun c => c.isAlphanum || c == '+' || c == '-'

/-- What follows a name: letters, or anything it may hold between `<` and `>`. -/
def afterName? (cs : List Char) : Option (List Char) :=
  match cs with
  | '<' :: r =>
    if r.contains '>' && isName (r.takeWhile (· ≠ '>')) then some (r.dropWhile (· ≠ '>')).tail
    else none
  | _ =>
    if isName (cs.takeWhile Char.isAlpha) then some (cs.dropWhile Char.isAlpha) else none

/-- A number from `low` to `high`. -/
def number? (low high : Nat) (cs : List Char) : Option (Nat × List Char) := do
  let n ← Decimal.read? (cs.takeWhile Char.isDigit)
  if low ≤ n ∧ n ≤ high then return (n, cs.dropWhile Char.isDigit) else none

/-- A number up to 59 behind a colon, or 0 where there is no colon. -/
def sixtieth? (cs : List Char) : Option (Nat × List Char) :=
  match cs with
  | ':' :: r => number? 0 59 r
  | r => some (0, r)

/-- The seconds in `hours`, `hours:minutes` or `hours:minutes:seconds`. -/
def seconds? (maxHour : Nat) (cs : List Char) : Option (Nat × List Char) := do
  let (h, r) ← number? 0 maxHour cs
  let more := r.head? == some ':'
  let (m, r) ← sixtieth? r
  let (s, r) ← if more then sixtieth? r else some (0, r)
  return (h * 3600 + m * 60 + s, r)

/-- How many seconds clocks are behind offset zero. -/
def behind? (cs : List Char) : Option (Int × List Char) :=
  match cs with
  | '-' :: r => (seconds? 23 r).map fun (n, r) => (-(n : Int), r)
  | '+' :: r => (seconds? 23 r).map fun (n, r) => ((n : Int), r)
  | r => (seconds? 23 r).map fun (n, r) => ((n : Int), r)

/-- What follows a character that has to be there. -/
def after? (c : Char) : List Char → Option (List Char)
  | [] => none
  | d :: r => if d = c then some r else none

/-- A day of the year: `Mmonth.week.day`, `Jnumber` or a number. -/
def yearDay? (cs : List Char) : Option (YearDay × List Char) :=
  match cs with
  | 'M' :: r => do
    let (month, r) ← number? 1 12 r
    let (week, r) ← number? 1 5 (← after? '.' r)
    let (day, r) ← number? 0 6 (← after? '.' r)
    return (.weekday month week day, r)
  | 'J' :: r => (number? 1 365 r).map fun (n, r) => (.fixed n, r)
  | r => (number? 0 365 r).map fun (n, r) => (.counted n, r)

/-- A change behind a comma, at two o'clock unless a time follows behind `/`. -/
def change? (cs : List Char) : Option (Change × List Char) := do
  let (day, r) ← yearDay? (← after? ',' cs)
  match r with
  | '/' :: r => (seconds? 24 r).map fun (second, r) => (⟨day, second⟩, r)
  | r => some (⟨day, 7200⟩, r)

/-- Whether `c` is a blank of the ASCII range. -/
def isGap (c : Char) : Bool := c.isWhitespace || c == '\x0c'

/-- The zone of a text. Summer clocks are an hour ahead unless their offset is given. -/
def read? (s : String) : Option Zone := do
  let cs := ((s.toList.dropWhile isGap).reverse.dropWhile isGap).reverse
  let (standard, r) ← behind? (← afterName? cs)
  if r.isEmpty then return .fixed (-standard)
  let r ← afterName? r
  let (summer, r) ← if r.head? == some ',' then some (standard - 3600, r) else behind? r
  let (toSummer, r) ← change? r
  let (toStandard, r) ← change? r
  if r.isEmpty then return .alternating (-standard) (-summer) toSummer toStandard else none

/-- The zone of a text, or offset zero for one that gives none. -/
def ofText (s : Option String) : Zone := (s.bind read?).getD (.fixed 0)

example : read? "NPT-5:45" = some (.fixed 20700) := by decide +kernel
example : read? "AAA11" = some (.fixed (-39600)) := by decide +kernel
example : (ofText (some "CET-1CEST,M3.5.0,M10.5.0/3")).offsetsFor ⟨2025, 10, 26⟩ 7200 =
    [3600, 7200] := by decide +kernel

end Docket.Zone
