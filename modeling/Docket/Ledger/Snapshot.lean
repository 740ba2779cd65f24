import Docket.Ledger.Basic

/-!
# Snapshots

* `Snapshot`, `Ledger.snapshot`, `Ledger.ofSnapshot`: the counters and records of a ledger, and a
  ledger made of them;
* `Snapshot.toJson`, `Snapshot.ofJson?`: the JSON form, with keys and values in order. On reading,
  either part may be left out, the last of two equal keys counts, and values may repeat.
-/

namespace Docket

open Std (ExtTreeMap ExtTreeSet)

/-- The counters and records of a ledger. -/
structure Snapshot where
  counters : ExtTreeMap String Counter := ∅
  records : ExtTreeMap String (ExtTreeSet String) := ∅
deriving DecidableEq

/-- The counters and records. -/
def Ledger.snapshot (l : Ledger) : Snapshot := ⟨l.counters, l.records⟩

/-- A ledger with these counters and records and no transactions. -/
def Ledger.ofSnapshot (name : Nat) (s : Snapshot) : Ledger :=
  { name, counters := s.counters, records := s.records }

@[simp] theorem Ledger.snapshot_ofSnapshot (name : Nat) (s : Snapshot) :
    (Ledger.ofSnapshot name s).snapshot = s := rfl

/-! ## JSON form -/

namespace Snapshot

/-- The members of an object, read one by one. -/
def readMembers {α : Type} (read : Json → Option α) : Json → Option (List (String × α))
  | .obj members => members.mapM fun (name, j) => (read j).map (name, ·)
  | _ => none

/-- A set of strings. -/
def readValues : Json → Option (ExtTreeSet String)
  | .arr items => (items.mapM Json.str?).map (ExtTreeSet.ofList ·)
  | _ => none

/-- The snapshot as an object of objects. -/
def toJson (s : Snapshot) : Json :=
  .obj [("counters", .obj (s.counters.toList.map fun (key, c) => (key, c.toJson))),
    ("records", .obj (s.records.toList.map fun (field, values) =>
      (field, .arr (values.toList.map .str))))]

/-- Reads a snapshot. -/
def ofJson? (j : Json) : Option Snapshot := do
  let [counters, records] ← j.fields? ["counters", "records"] | none
  let counters ← Json.fieldOr counters (readMembers Counter.ofJson?) []
  let records ← Json.fieldOr records (readMembers readValues) []
  return ⟨ExtTreeMap.ofList counters, ExtTreeMap.ofList records⟩

end Snapshot

end Docket
