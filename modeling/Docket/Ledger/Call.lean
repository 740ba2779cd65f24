import Docket.Counter

/-!
# Calls on a ledger

* `Tx`, `Ending`: a transaction, by its ledger and its number there, and how it ends;
* `Touch`, `Touch.Answer`, `Touch.key?`: the calls made inside a transaction, what each answers, and
  the key it needs;
* `Query`, `Query.Answer`: the calls made outside any.
-/

namespace Docket

/-- A transaction of a ledger. -/
structure Tx where
  ledger : Nat
  serial : Nat
deriving DecidableEq, Repr

/-- How a transaction ends. -/
inductive Ending where
  | commit
  | abort
deriving DecidableEq, Repr

/-- A call inside a transaction. -/
inductive Touch where
  /-- Reads a counter. -/
  | getIn (key : String)
  /-- Adds to a counter, which starts from zero with the mark `seed`. -/
  | increment (key : String) (step : UInt64) (seed : Mark) (now : Time)
  /-- Overwrites a counter. -/
  | set (key : String) (sequence : UInt64) (mark : Mark) (now : Time)
  /-- Asks whether a record carries a value in a field. -/
  | recorded (field value : String)
deriving DecidableEq, Repr

/-- What a call inside a transaction answers. -/
abbrev Touch.Answer : Touch → Type
  | .getIn _ => Option Counter
  | .increment .. => Counter
  | .set .. => Counter
  | .recorded .. => Bool

/-- The key that a call needs; a question about records needs none. -/
def Touch.key? : Touch → Option String
  | .getIn key | .increment key .. | .set key .. => some key
  | .recorded .. => none

/-- A call outside any transaction. -/
inductive Query where
  /-- Reads a counter. -/
  | get (key : String)
  /-- Deletes a counter; whether there was one. -/
  | remove (key : String)
  /-- Those of some values that records carry in a field. -/
  | findExisting (field : String) (values : List String)
deriving DecidableEq, Repr

/-- What a call outside any transaction answers. -/
abbrev Query.Answer : Query → Type
  | .get _ => Option Counter
  | .remove _ => Bool
  | .findExisting .. => List String

end Docket
