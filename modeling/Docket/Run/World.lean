import Docket.Ledger.Basic
import Docket.Series

/-!
# The surroundings of an operation

A world answers what an operation asks for. It keeps a log of calls, and a script says which of them
fail or never come back.

* `Call`, `Method`: an entry of the log, and what it is filed under in the script;
* `Fault`, `World`: what the script may do to a call, and the world;
* `World.now`, `World.isCancelled`, `World.takeWords`: the clock, the order to stop and the random
  words; clock and order may change from one call to the next;
* `World.note`: an allocation is noted as complete;
* `World.submit`, `World.submitTouch`, **`World.touch`**, `World.start`, `World.finish`,
  `World.query`: a call is logged, then the script is asked, and only then the ledger.
-/

namespace Docket

/-- An entry of the log. -/
inductive Call where
  | start
  | finish (how : Ending)
  | touch (c : Touch)
  | query (q : Query)
  | pause (span : Span)
deriving DecidableEq, Repr

/-- The kinds of calls that a script tells apart. -/
inductive Method where
  | start
  | commit
  | abort
  | increment
  | set
  | getIn
  | get
  | remove
  | recorded
  | findExisting
deriving DecidableEq, Repr

/-- The kind of a call inside a transaction. -/
def Touch.method : Touch → Method
  | .getIn _ => .getIn
  | .increment .. => .increment
  | .set .. => .set
  | .recorded .. => .recorded

/-- The kind of a call outside any transaction. -/
def Query.method : Query → Method
  | .get _ => .get
  | .remove _ => .remove
  | .findExisting .. => .findExisting

/-- The kind of an ending. -/
def Ending.method : Ending → Method
  | .commit => .commit
  | .abort => .abort

/-- What a script does to a call. -/
inductive Fault where
  /-- Nothing: the ledger answers. -/
  | pass
  /-- The call fails and does not reach the ledger. -/
  | fail (e : LedgerError)
  /-- The call never comes back. -/
  | stall
  /-- The question whether a value is recorded gets this answer. -/
  | say (b : Bool)
deriving DecidableEq, Repr

/-- What a call gives. -/
inductive Reply (α : Type) where
  | answer (r : Except LedgerError α)
  /-- The call waits for a key that another transaction holds. -/
  | waits
  | never

/-- The surroundings of an operation. -/
structure World where
  ledger : Ledger
  /-- What happens to the coming calls of each kind. -/
  faults : Method → List Fault := fun _ => []
  /-- What the clock shows after so many calls. -/
  clock : Nat → Time
  /-- The number of calls after which the operation is told to stop. -/
  stopAfter : Option Nat := none
  /-- The random words, and how many of them have been drawn. -/
  words : Nat → UInt64 := fun _ => 0
  drawn : Nat := 0
  /-- The calls so far, latest first. -/
  log : List Call := []
  /-- The allocations completed so far, latest first. -/
  notes : List Allocation := []
  /-- How much time has passed. -/
  elapsed : Nat := 0
  /-- When the operation is given up, if ever. -/
  horizon : Option Nat := none
  /-- Whether a pause takes no time and only lets others go first. -/
  restless : Bool := false

namespace World

/-- What the clock shows. -/
def now (w : World) : Time := w.clock w.log.length

/-- Whether the operation was told to stop. -/
def isCancelled (w : World) : Bool := w.stopAfter.any (· ≤ w.log.length)

/-- Draws random words. -/
def takeWords (w : World) (count : Nat) : List UInt64 × World :=
  ((List.range count).map fun i => w.words (w.drawn + i), { w with drawn := w.drawn + count })

/-- Notes that an allocation is complete. -/
def note (w : World) (a : Allocation) : World := { w with notes := a :: w.notes }

/-- Whether waiting until `time` goes beyond the horizon. -/
def beyond (w : World) (time : Nat) : Bool := w.horizon.any (· < time)

/-- Whether the horizon has been reached. -/
def timeIsUp (w : World) : Bool := w.horizon.any (· ≤ w.elapsed)

/-- Logs a call and takes what the script does to it. -/
def submit (w : World) (method : Method) (call : Call) : Fault × World :=
  let script := w.faults method
  (script.headD .pass,
    { w with
      log := call :: w.log
      faults := fun m => if m = method then script.tail else w.faults m })

/-- What a call that reaches the ledger gives. -/
def reach (w : World) (t : Tx) (c : Touch) : Reply c.Answer × World :=
  match w.ledger.touch t c with
  | some (r, ledger) => (.answer r, { w with ledger })
  | none => (.waits, w)

/-- The answer a script gives in place of the ledger. -/
def said (b : Bool) : (c : Touch) → Option c.Answer
  | .recorded .. => some b
  | _ => none

/-- Logs a call inside a transaction. The reply is missing if the call goes on to the ledger. -/
def submitTouch (w : World) (c : Touch) : Option (Reply c.Answer) × World :=
  let (fault, w) := w.submit c.method (.touch c)
  (match fault with
    | .fail e => some (.answer (.error e))
    | .stall => some .never
    | .say b => (said b c).map fun a => .answer (.ok a)
    | .pass => none, w)

/-- Makes a call inside a transaction. -/
def touch (w : World) (t : Tx) (c : Touch) : Reply c.Answer × World :=
  match w.submitTouch c with
  | (some r, w) => (r, w)
  | (none, w) => w.reach t c

/-- Opens a transaction. -/
def start (w : World) : Reply Tx × World :=
  let (fault, w) := w.submit .start .start
  match fault with
  | .fail e => (.answer (.error e), w)
  | .stall => (.never, w)
  | _ => (.answer (.ok w.ledger.start.1), { w with ledger := w.ledger.start.2 })

/-- Ends a transaction. One whose ending fails is dropped, which counts as an abort. -/
def finish (w : World) (t : Tx) (how : Ending) : Reply Unit × World :=
  let (fault, w) := w.submit how.method (.finish how)
  match fault with
  | .fail e => (.answer (.error e), { w with ledger := w.ledger.finish t .abort })
  | .stall => (.never, w)
  | _ => (.answer (.ok ()), { w with ledger := w.ledger.finish t how })

/-- Makes a call outside any transaction. -/
def query (w : World) (q : Query) : Reply q.Answer × World :=
  let (fault, w) := w.submit q.method (.query q)
  match fault with
  | .fail e => (.answer (.error e), w)
  | .stall => (.never, w)
  | _ => (.answer (.ok (w.ledger.query q).1), { w with ledger := (w.ledger.query q).2 })

/-- Logs a pause. -/
def logPause (w : World) (span : Span) : World := { w with log := .pause span :: w.log }

end World

end Docket
