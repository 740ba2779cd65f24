import Std.Data.ExtTreeMap

/-!
# The lock table

A counter key is locked by the transaction that touched it first, until that transaction ends.
Others queue for the key in the order in which they came. An entry belongs to a key that is held or
queued for; the end of a holder removes an entry for which nobody queues.

* `Lock`, `LockTable`: who holds a key and who queues for it;
* `LockTable.take?`: a transaction takes a key, or has to wait for it;
* `LockTable.join`, `LockTable.leave`: a transaction starts to wait for a key, or gives up waiting,
  which it may also do just after the key has been handed to it;
* `LockTable.release`: a transaction ends, and each of its keys goes to the first in its queue.
-/

namespace Docket

/-- Who holds a key, and who queues for it, first come first. -/
structure Lock where
  holder : Option Nat := none
  queue : List Nat := []
deriving DecidableEq, Repr

namespace Lock

/-- The lock after its holder lets go: the first in the queue holds it. -/
def passOn (l : Lock) : Lock := ⟨l.queue.head?, l.queue.tail⟩

/-- Whether the transaction holds the key or queues for it. -/
def Involves (l : Lock) (t : Nat) : Prop := l.holder = some t ∨ t ∈ l.queue

instance (l : Lock) (t : Nat) : Decidable (l.Involves t) := by unfold Involves; infer_instance

end Lock

/-- The locks of a ledger by key. -/
abbrev LockTable := Std.ExtTreeMap String Lock

namespace LockTable

/-- The table after `t` takes `key`; `none` if `t` has to wait because another transaction holds
it. -/
def take? (table : LockTable) (t : Nat) (key : String) : Option LockTable :=
  match table[key]? with
  | none => some (table.insert key { holder := some t })
  | some l =>
    match l.holder with
    | none => some (table.insert key { l with holder := some t })
    | some h => if h = t then some table else none

/-- The table after `t` starts to wait for `key`. -/
def join (table : LockTable) (t : Nat) (key : String) : LockTable :=
  let l := table[key]?.getD {}
  table.insert key { l with queue := l.queue ++ [t] }

/-- The table after `t` gives up waiting for `key`, which may already have been handed to it. -/
def leave (table : LockTable) (t : Nat) (key : String) : LockTable :=
  match table[key]? with
  | none => table
  | some l =>
    table.insert key (if l.holder = some t then l.passOn else { l with queue := l.queue.erase t })

/-- The table after `t` lets go of all its keys. -/
def release (table : LockTable) (t : Nat) : LockTable :=
  table.filterMap fun _ l =>
    if l.holder = some t then if l.queue.isEmpty then none else some l.passOn else some l

/-- Whether `t` holds `key`. -/
def Holds (table : LockTable) (t : Nat) (key : String) : Prop :=
  (table[key]?.bind (·.holder)) = some t

instance (table : LockTable) (t : Nat) (key : String) : Decidable (table.Holds t key) := by
  unfold Holds; infer_instance

end LockTable

end Docket
