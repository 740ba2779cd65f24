import Docket.Ledger.Snapshot
import Docket.Run.Task
import Mathlib.Logic.Function.Basic

/-!
# Ledgers side by side

Any number of ledgers and of their transactions, which make calls in any order, on their own ledger
or on another. A transaction whose call has to wait can do nothing but wait: it goes on when the key
is handed to it, or the call is given up.

* `Event`, `Archive.Enabled`, **`Archive.next`**: what can happen, when, and what comes of it;
* `Archive.passes`, `Archive.Lived`: who gets past the wait for a key, and what can come about.
-/

namespace Docket

namespace Ledger

/-- The ledger after a call starts to wait for its key. -/
def joining (l : Ledger) (t : Tx) (c : Touch) : Ledger :=
  match c.key? with
  | some key => { l with locks := l.locks.join t.serial key }
  | none => l

/-- The ledger after a call that waits is given up. -/
def leaving (l : Ledger) (t : Tx) (c : Touch) : Ledger :=
  match c.key? with
  | some key => { l with locks := l.locks.leave t.serial key }
  | none => l

end Ledger

theorem Task.joinQueue_eq (w : World) (t : Tx) (c : Touch) :
    Task.joinQueue w t c = { w with ledger := w.ledger.joining t c } := by
  unfold Task.joinQueue Ledger.joining
  cases c.key? <;> rfl

/-- Whether a call comes to more than a word holds. -/
def Touch.Overflows (l : Ledger) : Touch → Prop
  | .increment key step seed now =>
    UInt64.size ≤ (l.counterOr key seed now).sequence.toNat + step.toNat
  | _ => False

/-- Whether a call overwrites the counter under a key, or adds to it. -/
def Touch.IsWrite (key : String) : Touch → Prop
  | .increment k .. | .set k .. => k = key
  | _ => False

/-- Ledgers by their names, and the calls that wait. -/
structure Archive where
  ledgers : Nat → Ledger
  waiting : Tx → Option Touch

/-- What can happen to the ledgers. -/
inductive Event where
  | start (n : Nat)
  /-- A transaction makes a call on a ledger, which need not be its own. -/
  | touch (n : Nat) (t : Tx) (c : Touch)
  /-- A transaction sees whether it has the key it waits for, and goes on if so. -/
  | resume (t : Tx)
  | giveUp (t : Tx)
  /-- A transaction ends. One that is dropped aborts. -/
  | finish (t : Tx) (how : Ending)
  | query (n : Nat) (q : Query)
  | record (n : Nat) (field : String) (values : List String)

namespace Archive

/-- Ledgers made of snapshots, each with its name. -/
def opening (snapshots : Nat → Snapshot) : Archive where
  ledgers n := .ofSnapshot n (snapshots n)
  waiting _ := none

def put (a : Archive) (n : Nat) (l : Ledger) : Archive :=
  { a with ledgers := Function.update a.ledgers n l }

def await (a : Archive) (t : Tx) (c : Option Touch) : Archive :=
  { a with waiting := Function.update a.waiting t c }

def IsOpen (a : Archive) (t : Tx) : Prop := (a.ledgers t.ledger).IsOpen t

instance (a : Archive) (t : Tx) : Decidable (a.IsOpen t) := by unfold IsOpen; infer_instance

/-- What a call gives, made by a transaction on its own ledger. -/
def outcome (a : Archive) (t : Tx) (c : Touch) : Ledger.Outcome c.Answer :=
  (a.ledgers t.ledger).touch t c

/-- Whether something can happen: a transaction whose call waits makes no other and does not end. -/
def Enabled (a : Archive) : Event → Prop
  | .touch _ t _ | .finish t _ => a.waiting t = none
  | _ => True

/-- What comes of an event. -/
def next (a : Archive) : Event → Archive
  | .start n => a.put n (a.ledgers n).start.2
  | .touch n t c =>
    match (a.ledgers n).touch t c with
    | some (_, l) => a.put n l
    | none => (a.put n ((a.ledgers n).joining t c)).await t (some c)
  | .resume t =>
    match a.waiting t with
    | some c =>
      match a.outcome t c with
      | some (_, l) => (a.put t.ledger l).await t none
      | none => a
    | none => a
  | .giveUp t =>
    match a.waiting t with
    | some c => (a.put t.ledger ((a.ledgers t.ledger).leaving t c)).await t none
    | none => a
  | .finish t how => a.put t.ledger ((a.ledgers t.ledger).finish t how)
  | .query n q => a.put n ((a.ledgers n).query q).2
  | .record n field values => a.put n ((a.ledgers n).extendRecords field values)

/-- Who gets past the wait for which key in an event, if anyone. That is so too if the call then
fails. -/
def passes (a : Archive) : Event → Option (Tx × String)
  | .touch n t c =>
    if (a.ledgers n).IsOpen t ∧ ((a.ledgers n).touch t c).isSome then c.key?.map (t, ·) else none
  | .resume t =>
    match a.waiting t with
    | some c => if (a.outcome t c).isSome then c.key?.map (t, ·) else none
    | none => none
  | _ => none

/-- The ledgers can come to be like this, and these have got past the wait for these keys. -/
inductive Lived : Archive → List (Tx × String) → Prop
  | opening (snapshots : Nat → Snapshot) : Lived (opening snapshots) []
  | step {a : Archive} {passed : List (Tx × String)} {e : Event} (before : Lived a passed)
      (enabled : a.Enabled e) : Lived (a.next e) ((a.passes e).toList ++ passed)

/-- Whether a transaction has got past the wait for a key. If it waits, the key has been handed to
it and it has only to go on. -/
def Past (a : Archive) (passed : List (Tx × String)) (t : Tx) (key : String) : Prop :=
  (t, key) ∈ passed ∨
    ∃ c, a.waiting t = some c ∧ c.key? = some key ∧ (a.outcome t c).isSome

def Awaits (a : Archive) (t : Tx) (key : String) : Prop :=
  ∃ c, a.waiting t = some c ∧ c.key? = some key

/-- Whether an event is a write of the transaction's to the counter under a key, or deletes it. -/
def Writes (a : Archive) (t : Tx) (key : String) : Event → Prop
  | .touch n u c => u = t ∧ n = t.ledger ∧ c.IsWrite key
  | .resume u => u = t ∧ ∃ c, a.waiting t = some c ∧ c.IsWrite key
  | .query n q => n = t.ledger ∧ q = .remove key
  | _ => False

end Archive

end Docket
