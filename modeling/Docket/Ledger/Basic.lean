import Docket.Error
import Docket.Ledger.Call
import Docket.Ledger.Lock
import Std.Data.ExtTreeSet

/-!
# The ledger

A ledger holds counters by key, records by field, and the locks of its open transactions. A write
takes effect at once and stays when its transaction aborts.

* `Ledger`, `Ledger.IsOpen`: the ledger, and whether a transaction of it is open;
* `Ledger.start`, `Ledger.finish`: a transaction starts, and ends with a commit or an abort;
* `Ledger.increment`, `Ledger.set`, `Ledger.getIn`, `Ledger.recorded`, **`Ledger.touch`**: the calls
  inside a transaction; a call on a key that another open transaction holds has to wait;
* `Ledger.query`: the calls outside any transaction;
* `Ledger.insertRecord`, `Ledger.extendRecords`: records are added outside any transaction too.
-/

namespace Docket

open Std (ExtTreeMap ExtTreeSet)

/-- Counters by key, records by field, the locks, and how many transactions started and ended. -/
structure Ledger where
  name : Nat := 0
  counters : ExtTreeMap String Counter := ∅
  records : ExtTreeMap String (ExtTreeSet String) := ∅
  locks : LockTable := ∅
  begun : Nat := 0
  active : List Nat := []
  commits : Nat := 0
  aborts : Nat := 0

namespace Ledger

/-- Whether `t` is a transaction of this ledger that has not ended. -/
def IsOpen (l : Ledger) (t : Tx) : Prop := t.ledger = l.name ∧ t.serial ∈ l.active

instance (l : Ledger) (t : Tx) : Decidable (l.IsOpen t) := by unfold IsOpen; infer_instance

/-- A new transaction. -/
def start (l : Ledger) : Tx × Ledger :=
  (⟨l.name, l.begun⟩, { l with begun := l.begun + 1, active := l.begun :: l.active })

/-- The ledger after `t` ends: its keys are let go. Ending a transaction twice does nothing. -/
def finish (l : Ledger) (t : Tx) (how : Ending) : Ledger :=
  if l.IsOpen t then
    let l := { l with active := l.active.erase t.serial, locks := l.locks.release t.serial }
    match how with
    | .commit => { l with commits := l.commits + 1 }
    | .abort => { l with aborts := l.aborts + 1 }
  else l

/-! ## Calls inside a transaction -/

/-- What a call inside a transaction gives: an answer or a failure, or `none` if it has to wait. -/
abbrev Outcome (α : Type) := Option (Except LedgerError α × Ledger)

/-- A call that needs `key`, once the transaction has it. -/
def withKey {α : Type} (l : Ledger) (t : Tx) (key : String)
    (act : Ledger → Except LedgerError α × Ledger) : Outcome α :=
  if l.IsOpen t then (l.locks.take? t.serial key).map fun locks => act { l with locks }
  else some (.error (.backend .foreignTransaction), l)

/-- The sum of two words, if it is one. -/
def addWords? (a b : UInt64) : Option UInt64 :=
  if a.toNat + b.toNat < UInt64.size then some (a + b) else none

/-- A counter under `key`, or the one it starts from. -/
def counterOr (l : Ledger) (key : String) (seed : Mark) (now : Time) : Counter :=
  l.counters[key]?.getD ⟨key, 0, seed, now⟩

/-- Adds to the counter under `key`; past the largest word it fails and the record stays. -/
def increment (l : Ledger) (t : Tx) (key : String) (step : UInt64) (seed : Mark) (now : Time) :
    Outcome Counter :=
  l.withKey t key fun l =>
    let c := l.counterOr key seed now
    match addWords? c.sequence step with
    | some n =>
      let c := { c with sequence := n, written := now }
      (.ok c, { l with counters := l.counters.insert key c })
    | none => (.error (.backend (.overflowed key)), l)

/-- Overwrites the counter under `key`. -/
def set (l : Ledger) (t : Tx) (key : String) (sequence : UInt64) (mark : Mark) (now : Time) :
    Outcome Counter :=
  l.withKey t key fun l =>
    let c : Counter := ⟨key, sequence, mark, now⟩
    (.ok c, { l with counters := l.counters.insert key c })

/-- Reads the counter under `key`. -/
def getIn (l : Ledger) (t : Tx) (key : String) : Outcome (Option Counter) :=
  l.withKey t key fun l => (.ok l.counters[key]?, l)

/-- Whether a record carries `value` in `field`. -/
def IsRecorded (l : Ledger) (field value : String) : Prop := value ∈ l.records[field]?.getD ∅

instance (l : Ledger) (field value : String) : Decidable (l.IsRecorded field value) := by
  unfold IsRecorded; infer_instance

/-- Whether a record carries `value` in `field`; this never waits. -/
def recorded (l : Ledger) (t : Tx) (field value : String) : Outcome Bool :=
  some (if l.IsOpen t then .ok (decide (l.IsRecorded field value))
    else .error (.backend .foreignTransaction), l)

/-- A call inside a transaction. -/
def touch (l : Ledger) (t : Tx) : (c : Touch) → Outcome c.Answer
  | .getIn key => l.getIn t key
  | .increment key step seed now => l.increment t key step seed now
  | .set key sequence mark now => l.set t key sequence mark now
  | .recorded field value => l.recorded t field value

/-! ## Calls outside any transaction -/

/-- Those of `values` that records carry in `field`, in order, repeats kept. -/
def findExisting (l : Ledger) (field : String) (values : List String) : List String :=
  values.filter fun v => decide (l.IsRecorded field v)

/-- A call outside any transaction. -/
def query (l : Ledger) : (q : Query) → q.Answer × Ledger
  | .get key => (l.counters[key]?, l)
  | .remove key => (l.counters.contains key, { l with counters := l.counters.erase key })
  | .findExisting field values => (l.findExisting field values, l)

/-- Adds `values` to the records of `field`, which exists from then on. -/
def extendRecords (l : Ledger) (field : String) (values : List String) : Ledger :=
  { l with records := l.records.insert field ((l.records[field]?.getD ∅).insertMany values) }

/-- Adds `value` to the records of `field`; whether it is new. -/
def insertRecord (l : Ledger) (field value : String) : Bool × Ledger :=
  (!decide (l.IsRecorded field value), l.extendRecords field [value])

end Ledger

end Docket
