import Docket.Calendar.Written
import Docket.Json.Basic

/-!
# Counters

A counter record holds the last sequence handed out under a key, the mark that keeps equal sequences
apart, and when it was last written.

* `Mark`, `Counter`: the mark and the record;
* `Counter.IsStale`: the record was last written in another calendar month;
* `Mark.toJson`, `Mark.ofJson?`, `Counter.toJson`, `Counter.ofJson?`: their JSON form.
-/

namespace Docket

/-- What keeps equal sequences of a counter apart. -/
inductive Mark where
  /-- Nothing: the key is enough. -/
  | plain
  /-- The auxiliary digit of a roll number. -/
  | digit (d : UInt8)
  /-- The prefix of an invoice ID. -/
  | lead (text : String)
deriving DecidableEq, Repr, Inhabited

namespace Mark

/-- The auxiliary digit, if the mark is one. -/
def digit? : Mark → Option UInt8
  | .digit d => some d
  | _ => none

/-- The invoice prefix, if the mark is one. -/
def lead? : Mark → Option String
  | .lead text => some text
  | _ => none

end Mark

/-- A counter record. -/
structure Counter where
  key : String
  sequence : UInt64
  mark : Mark
  written : Time
deriving DecidableEq, Repr

/-- Whether the record was last written in another calendar month than `now`, on `now`'s clock. -/
def Counter.IsStale (c : Counter) (now : Time) : Prop := ¬ c.written.SameMonth now

instance (c : Counter) (now : Time) : Decidable (c.IsStale now) := by
  unfold Counter.IsStale; infer_instance

/-! ## JSON form -/

namespace Mark

/-- The mark as an object with its kind and its value. -/
def toJson : Mark → Json
  | .plain => .obj [("kind", .str "none")]
  | .digit d => .obj [("kind", .str "digit"), ("value", .nat d.toNat)]
  | .lead text => .obj [("kind", .str "prefix"), ("value", .str text)]

/-- The name of a kind: a string, or an object whose one member has that name and the value null. -/
def kind? : Json → Option String
  | .str s => some s
  | .obj [(s, .null)] => some s
  | _ => none

/-- The mark of a kind with a value. -/
def ofParts? (kind : String) (value : Option Json) : Option Mark :=
  if kind = "none" then
    match value with
    | none | some .null => some .plain
    | some _ => none
  else if kind = "digit" then
    value.bind (·.natBelow? UInt8.size) |>.map fun d => .digit (UInt8.ofNat d)
  else if kind = "prefix" then value.bind (·.str?) |>.map .lead
  else none

/-- Reads a mark: an object, or an array of exactly its kind, which is a string then, and its
value. -/
def ofJson? (j : Json) : Option Mark :=
  match j with
  | .arr [.str kind, value] => ofParts? kind (some value)
  | .arr _ => none
  | _ => do
    let [kind, value] ← j.fields? ["kind", "value"] | none
    ofParts? (← kind? (← kind)) value

end Mark

namespace Counter

/-- The record as an object. -/
def toJson (c : Counter) : Json :=
  .obj [("key", .str c.key), ("sequence", .nat c.sequence.toNat), ("disambiguator", c.mark.toJson),
    ("last_updated", .str c.written.text)]

/-- Reads a record, all of whose fields must be there. -/
def ofJson? (j : Json) : Option Counter := do
  let [key, sequence, mark, written] ←
    j.fields? ["key", "sequence", "disambiguator", "last_updated"] | none
  return ⟨← (← key).str?, ← (← sequence).word?, ← Mark.ofJson? (← mark),
    ← Time.read? (← (← written).str?)⟩

end Counter

end Docket
