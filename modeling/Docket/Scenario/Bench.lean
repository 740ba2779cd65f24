import Docket.Ledger.Snapshot

/-!
# Two ledgers on a bench

* `Bench`, `Bench.Side`, `Bench.Action`: two ledgers, which of them a step is about, and what it
  does;
* `Bench.Outcome`, **`Bench.step`**: what comes of a step. A call that has to wait is given up at
  once.
-/

namespace Docket.Scenario

/-- Two ledgers, and names for transactions of either. -/
structure Bench where
  left : Ledger
  right : Ledger
  names : List (String × Tx) := []

namespace Bench

/-- One of the two ledgers. -/
inductive Side where
  | left
  | right
deriving DecidableEq, Repr

/-- What a step does. -/
inductive Action where
  | start (tx : String)
  | finish (tx : String) (how : Ending)
  | touch (tx : String) (c : Touch)
  | get (key : String)
  | remove (key : String)
  | insertRecord (field value : String)
  | extendRecords (field : String) (values : List String)
  | findExisting (field : String) (values : List String)
  | snapshot
deriving DecidableEq, Repr

/-- What comes of a step. -/
inductive Outcome where
  | done
  | error (e : LedgerError)
  | blocked
  | unknownTx
  | counter (c : Option Counter)
  | flag (b : Bool)
  | values (vs : List String)
  | snapshot (s : Snapshot)

/-- The ledger on a side. -/
def ledger (b : Bench) : Side → Ledger
  | .left => b.left
  | .right => b.right

/-- The bench with another ledger on a side. -/
def put (b : Bench) (side : Side) (l : Ledger) : Bench :=
  match side with
  | .left => { b with left := l }
  | .right => { b with right := l }

/-- The side whose ledger a transaction belongs to. -/
def sideOf (b : Bench) (t : Tx) : Side := if t.ledger = b.left.name then .left else .right

/-- The bench after a transaction ends. -/
def finish (b : Bench) (t : Tx) (how : Ending) : Bench :=
  b.put (b.sideOf t) ((b.ledger (b.sideOf t)).finish t how)

/-- The bench without a name; the transaction stays as it is. -/
def forget (b : Bench) (name : String) : Bench :=
  { b with names := b.names.filter (·.1 != name) }

/-- What an answer inside a transaction comes to. -/
def ofAnswer : (c : Touch) → c.Answer → Outcome
  | .getIn _, c => .counter c
  | .increment .., c => .counter (some c)
  | .set .., c => .counter (some c)
  | .recorded .., b => .flag b

/-- What a step comes to, and the bench after it. -/
def step (b : Bench) (side : Side) : Action → Outcome × Bench
  | .start tx =>
    let (t, l) := (b.ledger side).start
    let b := b.put side l
    let b := (b.names.lookup tx).elim b fun old => b.finish old .abort
    (.done, { b.forget tx with names := (tx, t) :: (b.forget tx).names })
  | .finish tx how =>
    match b.names.lookup tx with
    | some t => (.done, (b.forget tx).finish t how)
    | none => (.unknownTx, b)
  | .touch tx c =>
    match b.names.lookup tx with
    | none => (.unknownTx, b)
    | some t =>
      match (b.ledger side).touch t c with
      | none => (.blocked, b)
      | some (.ok a, l) => (ofAnswer c a, b.put side l)
      | some (.error e, l) => (.error e, b.put side l)
  | .get key => (.counter (b.ledger side).counters[key]?, b)
  | .remove key =>
    let (removed, l) := (b.ledger side).query (.remove key)
    (.flag removed, b.put side l)
  | .insertRecord field value =>
    let (new, l) := (b.ledger side).insertRecord field value
    (.flag new, b.put side l)
  | .extendRecords field values => (.done, b.put side ((b.ledger side).extendRecords field values))
  | .findExisting field values => (.values ((b.ledger side).findExisting field values), b)
  | .snapshot => (.snapshot (b.ledger side).snapshot, b)

end Bench

end Docket.Scenario
