import Docket.Issue.Plan
import Docket.Json.Basic

/-!
# Forecasts

What the next roll numbers will be, without issuing them.

* `Forecast.Entry`, `Forecast.simulate`: entries from a start, with the digit advancing past the
  last sequence;
* `Forecast.preview`: the entries from where the counter stands;
* `Forecast.dryRun`, `Forecast.Report`: the same, with those that records already carry;
* `Entry.toJson`, `Report.toJson`: their JSON form.
-/

namespace Docket.Forecast

/-- A roll number to come; the first has index 1. -/
structure Entry where
  id : String
  period : String
  sequence : UInt64
  digit : UInt8
  index : Nat
deriving DecidableEq, Repr

/-- The sequence and digit in force at a start, which may lie past the last sequence. -/
def settle (top sequence : UInt64) (digit : UInt8) : UInt64 × UInt8 :=
  if top < sequence then (1, Series.nextDigit digit) else (sequence, digit)

/-- `count` entries from a sequence and digit on. -/
def entries (period : String) (top : UInt64) (count index : Nat) (sequence : UInt64)
    (digit : UInt8) : Except Error (List Entry) :=
  match count with
  | 0 => return []
  | count + 1 => do
    let id ← RollNumber.format ⟨period, digit, sequence⟩
    let next := settle top (sequence + 1) digit
    let rest ← entries period top count (index + 1) next.1 next.2
    return ⟨id, period, sequence, digit, index⟩ :: rest

/-- The next `count` roll numbers from a start. -/
def simulate (period : String) (count : Nat) (sequence : UInt64) (digit : UInt8) (top : UInt64) :
    Except Error (List Entry) :=
  if count = 0 then .ok []
  else if RollNumber.radix ≤ digit then .error (.invalid (.startDigit digit.toNat))
  else if top = 0 ∨ RollNumber.maxSequence < top then .error (.invalid (.maxSequence top.toNat))
  else
    let start := settle top (max sequence 1) digit
    entries period top count 1 start.1 start.2

/-- The word after `n`, or `n` if it is the last. -/
def after (n : UInt64) : UInt64 := if n.toNat + 1 < UInt64.size then n + 1 else n

/-- Where the next roll number starts, given the counter. -/
def startOf : Option Counter → UInt64 × UInt8
  | some c => (after c.sequence, c.mark.digit?.getD 0)
  | none => (1, 0)

/-- The next `count` roll numbers from where the counter stands. -/
def preview (s : RollSettings) (count : Nat) : Plan (Except Error (List Entry)) :=
  if count = 0 then .done (.ok [])
  else .now fun now =>
    let key := (Series.roll s).key now
    .query (.get key) fun
      | .error e => .done (.error (.ledger e))
      | .ok c => .done (simulate key count (startOf c).1 (startOf c).2 s.maxSequence)

/-- Those of `ids` that records carry in a field. -/
def findCollisions (field : String) (ids : List String) : Plan (Except Error (List String)) :=
  if ids.isEmpty then .done (.ok [])
  else .query (.findExisting field ids) fun r => .done (r.mapError .ledger)

/-- A dry run in short. -/
structure Summary where
  total : Nat
  collisions : Nat
  startKey : String
  endKey : String
  range : String
deriving DecidableEq, Repr

/-- A dry run. -/
structure Report where
  simulated : List Entry
  collisions : List String
  summary : Summary
deriving DecidableEq, Repr

/-- The entries in short. Where there are none, nothing is counted and the texts are empty. -/
def summarize (simulated : List Entry) (collisions : Nat) : Summary :=
  match simulated.head?, simulated.getLast? with
  | some first, some last =>
    ⟨simulated.length, collisions, first.period, last.period,
      Decimal.text first.sequence.toNat ++ "-" ++ Decimal.text last.sequence.toNat⟩
  | _, _ => ⟨0, 0, "", "", ""⟩

/-- The next `count` roll numbers and those of them that records already carry. -/
def dryRun (s : RollSettings) (count : Nat) : Plan (Except Error Report) := do
  match ← preview s count with
  | .error e => return .error e
  | .ok simulated =>
    match ← findCollisions s.field (simulated.map (·.id)) with
    | .error e => return .error e
    | .ok collisions =>
      return .ok ⟨simulated, collisions, summarize simulated collisions.length⟩

/-! ## JSON form -/

/-- The entry as an object. -/
def Entry.toJson (e : Entry) : Json :=
  .obj [("aux_digit", .nat e.digit.toNat), ("id", .str e.id), ("index", .nat e.index),
    ("period_key", .str e.period), ("sequence", .nat e.sequence.toNat)]

@[inherit_doc Entry.toJson]
def Summary.toJson (s : Summary) : Json :=
  .obj [("end_key", .str s.endKey), ("potential_collisions", .nat s.collisions),
    ("sequence_range", .str s.range), ("start_key", .str s.startKey),
    ("total_simulated", .nat s.total)]

@[inherit_doc Entry.toJson]
def Report.toJson (r : Report) : Json :=
  .obj [("collisions", .arr (r.collisions.map .str)),
    ("simulated", .arr (r.simulated.map Entry.toJson)), ("summary", r.summary.toJson)]

end Docket.Forecast
