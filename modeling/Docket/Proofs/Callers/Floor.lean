import Docket.Run.Task
import Mathlib.Logic.Function.Basic
import Mathlib.Logic.Relation

/-!
# Callers in any order

Any number of callers share one ledger. One of them at a time does its next thing; it may be given
up or dropped wherever it waits for a call, and between any two things the clock, the script, the
random words and the orders to stop may change.

* `Job`, `Floor`, **`Floor.Step`**, `Floor.Runs`: what a caller can ask for, the callers with their
  world, one step of one of them, and any number of steps.
-/

namespace Docket

/-- What a caller can ask for. Several of them need a transaction. -/
inductive Job where
  | issueOne (s : Series) (r : RetrySettings)
  | issueIn (s : Series) (r : RetrySettings) (t : Tx)
  | issueBatch (s : Series) (r : RetrySettings) (count : Nat)
  /-- Allocates once. -/
  | allocate (s : Series) (now : Time) (limit : Span) (t : Tx)
  /-- Makes one call. -/
  | touch (c : Touch) (limit : Span) (t : Tx)
  | start
  | finish (how : Ending) (t : Tx)
  | query (q : Query)

namespace Job

/-- The transaction the job is done in, if it is given one. -/
def tx? : Job → Option Tx
  | .issueIn _ _ t | .allocate _ _ _ t | .touch _ _ t | .finish _ t => some t
  | _ => none

/-- The job as a plan. What comes of it is left out. -/
def plan : Job → Plan Unit
  | .issueOne s r => (s.issueOne r).bind fun _ => .done ()
  | .issueIn s r t => (s.issueIn r t).bind fun _ => .done ()
  | .issueBatch s r count => (s.issueBatch r count).bind fun _ => .done ()
  | .allocate s now limit t =>
    .attempt t limit ((s.allocate now).bind fun a => .done (.clear a.key)) fun _ => .done ()
  | .touch c limit t => .attempt t limit (.touch c fun _ => .done (.clear "")) fun _ => .done ()
  | .start => .start fun _ => .done ()
  | .finish how t => .finish t how fun _ => .done ()
  | .query q => .query q fun _ => .done ()

end Job

/-! ## Leaving a task -/

namespace Task

variable {α : Type}

/-- Whether a task is at a call, or between an attempt and the next. -/
def Waits : Task α → Prop
  | .working _ _ _ work _ => ∃ c rest, work = .touch c rest
  | _ => True

/-- The transaction in the hands of a caller after the next step of its task. -/
def handed (w : World) (hand : Option Tx) : Task α → Option Tx
  | .planned (.start _) =>
    match w.start with
    | (.answer (.ok t), _) => some t
    | _ => hand
  | .planned (.finish t how _) =>
    match w.finish t how with
    | (.answer _, _) => none
    | _ => hand
  | _ => hand

end Task

/-! ## The floor -/

/-- Callers, each with a task and perhaps a transaction in its hands, and their world. -/
structure Floor where
  world : World
  callers : Nat → Task Unit
  hand : Nat → Option Tx

namespace Floor

def put (f : Floor) (i : Nat) (task : Task Unit) (w : World) : Floor :=
  { f with world := w, callers := Function.update f.callers i task }

def give (f : Floor) (i : Nat) (hand : Option Tx) : Floor :=
  { f with hand := Function.update f.hand i hand }

/-- One step of one caller, each of whose jobs is one that it may do. -/
inductive Step (may : Job → Prop) : Floor → Floor → Prop
  /-- A caller whose last job is done begins another, in the transaction in its hands. -/
  | ask {f : Floor} {i : Nat} {job : Job} (idle : (f.callers i).value?.isSome)
      (hand : job.tx? = f.hand i) (allowed : may job) :
      Step may f (f.put i (.planned job.plan) f.world)
  /-- A caller does its next thing. -/
  | act {f : Floor} {i : Nat} {task : Task Unit} {w : World}
      (next : (f.callers i).step? f.world = some (task, w)) :
      Step may f ((f.put i task w).give i ((f.callers i).handed f.world (f.hand i)))
  /-- An attempt lasts too long. -/
  | giveUp {f : Floor} {i : Nat} {task : Task Unit} {w : World} (waits : (f.callers i).Waits)
      (next : (f.callers i).giveUp? f.world = some (task, w)) : Step may f (f.put i task w)
  /-- A caller drops its job. The transaction stays in its hands. -/
  | drop {f : Floor} {i : Nat} (waits : (f.callers i).Waits) :
      Step may f (f.put i (.planned (.done ())) ((f.callers i).leave f.world))
  /-- Identifiers are put on record. -/
  | record {f : Floor} (field : String) (values : List String) :
      Step may f { f with world.ledger := f.world.ledger.extendRecords field values }
  /-- All but the ledger changes: the clock, the script, the orders to stop. -/
  | shift {f : Floor} {w : World} (ledger : w.ledger = f.world.ledger)
      (notes : w.notes = f.world.notes) : Step may f { f with world := w }

abbrev Runs (may : Job → Prop) : Floor → Floor → Prop := Relation.ReflTransGen (Step may)

/-- The floor after a caller has done its next thing, if it can do anything. -/
def turn (f : Floor) (i : Nat) : Floor :=
  match (f.callers i).step? f.world with
  | some (task, w) => (f.put i task w).give i ((f.callers i).handed f.world (f.hand i))
  | none => f

def turns (f : Floor) (order : List Nat) : Floor := order.foldl turn f

theorem runs_turn {may : Job → Prop} (f : Floor) (i : Nat) : Runs may f (f.turn i) := by
  unfold turn
  split
  · next h => exact .single (.act h)
  · exact .refl

theorem runs_turns {may : Job → Prop} (f : Floor) (order : List Nat) :
    Runs may f (f.turns order) := by
  induction order generalizing f with
  | nil => exact .refl
  | cons i order ih => exact (runs_turn f i).trans (ih (f.turn i))

/-- The floor after a caller has begun a job and had some turns. -/
def doing (f : Floor) (i : Nat) (job : Job) (turns : Nat) : Floor :=
  (f.put i (.planned job.plan) f.world).turns (List.replicate turns i)

theorem runs_doing {may : Job → Prop} {f : Floor} {i : Nat} {job : Job} (turns : Nat)
    (idle : (f.callers i).value?.isSome) (hand : job.tx? = f.hand i) (allowed : may job) :
    Runs may f (f.doing i job turns) :=
  .head (.ask idle hand allowed) (runs_turns _ _)

/-- Nobody has begun, nothing is noted, and no transaction is in the hands of two callers. -/
structure Opening (f : Floor) : Prop where
  idle : ∀ i, (f.callers i).value?.isSome
  notes : f.world.notes = []
  apart : ∀ {i j t}, f.hand i = some t → f.hand j = some t → i = j
  begun : ∀ {i t}, f.hand i = some t → t.ledger = f.world.ledger.name →
    t.serial < f.world.ledger.begun

end Floor

/-- The allocations completed under a key, in order. -/
def World.allotted (w : World) (key : String) : List Allocation :=
  (w.notes.filter (·.key == key)).reverse

end Docket
