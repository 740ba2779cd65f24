import Docket.Issue.Generate
import Docket.Run.World

/-!
# Plans under way

A plan that runs beside others does one thing at a time; where it has to wait for a key it queues
for it, and an attempt that lasts too long is given up.

* `Task`, **`Task.step?`**: a plan under way, and the next thing it does, if it can do anything now;
* `Task.giveUp?`: an attempt is given up, whatever it is waiting for;
* `Task.leave`, `Task.drop`: a task is left where it is, and its transaction with it;
* `Task.value?`, `Task.wake?`, `Task.attempt?`: the value of a plan that is done, when a task that
  cannot act now can act at the latest, and the transaction of the attempt under way;
* `Task.EndsWait`: whether the next thing a task does is about the end of a wait.
-/

namespace Docket

/-- A plan under way. -/
inductive Task (α : Type) where
  | planned (p : Plan α)
  | asleep (wake : Nat) (p : Plan α)
  /-- Has let the others go first. -/
  | aside (p : Plan α)
  /-- In an attempt that must end by a deadline. -/
  | working (t : Tx) (limit : Span) (deadline : Nat) (work : Work Candidate)
      (next : Except Error Candidate → Plan α)
  /-- In an attempt, with a call that the script has let pass. -/
  | reaching (t : Tx) (limit : Span) (deadline : Nat) (call : Touch)
      (rest : call.Answer → Work Candidate) (next : Except Error Candidate → Plan α)
  /-- In an attempt, waiting for the key that a call needs. -/
  | queued (t : Tx) (limit : Span) (deadline : Nat) (call : Touch)
      (rest : call.Answer → Work Candidate) (next : Except Error Candidate → Plan α)
  /-- In an attempt, at a call that never comes back. -/
  | stalled (t : Tx) (limit : Span) (deadline : Nat) (next : Except Error Candidate → Plan α)
  /-- At a call that nothing bounds and that never comes back. -/
  | lost

namespace Task

variable {α : Type}

/-- The value of a plan that is done. -/
def value? : Task α → Option α
  | .planned (.done a) => some a
  | _ => none

/-- When a task that cannot act now can act at the latest. -/
def wake? : Task α → Option Nat
  | .asleep wake _ => some wake
  | .queued _ _ deadline .. => some deadline
  | .stalled _ _ deadline _ => some deadline
  | _ => none

/-- The transaction of the attempt under way. -/
def attempt? : Task α → Option Tx
  | .working t .. | .reaching t .. | .queued t .. | .stalled t .. => some t
  | _ => none

/-- Whether the task has let the others go first. -/
def isAside : Task α → Bool
  | .aside _ => true
  | _ => false

/-- Whether the task queues for a key. -/
def isQueued : Task α → Bool
  | .queued .. => true
  | _ => false

/-! ## Waiting for a key -/

/-- Takes a transaction out of the queue for a key. -/
def leaveQueue (w : World) (t : Tx) (c : Touch) : World :=
  match c.key? with
  | some key => { w with ledger := { w.ledger with locks := w.ledger.locks.leave t.serial key } }
  | none => w

/-- Puts a transaction into the queue for a key. -/
def joinQueue (w : World) (t : Tx) (c : Touch) : World :=
  match c.key? with
  | some key => { w with ledger := { w.ledger with locks := w.ledger.locks.join t.serial key } }
  | none => w

/-- Whether the transaction has the key that a call needs. -/
def Granted (w : World) (t : Tx) (c : Touch) : Prop :=
  ∀ key, c.key? = some key → w.ledger.locks.Holds t.serial key

instance (w : World) (t : Tx) (c : Touch) : Decidable (Granted w t c) := by
  unfold Granted
  match c.key? with
  | none => exact .isTrue nofun
  | some key =>
    exact decidable_of_iff (w.ledger.locks.Holds t.serial key)
      ⟨fun h _ e => Option.some.inj e ▸ h, fun h => h key rfl⟩

/-! ## Steps -/

/-- The plan after an attempt that lasted too long. -/
def timedOut (limit : Span) (next : Except Error Candidate → Plan α) : Task α :=
  .planned (next (.error (.ledger (.timeout limit))))

/-- Gives up an attempt, whatever it is waiting for. -/
def giveUp? : Task α → World → Option (Task α × World)
  | .working _ limit _ _ next, w => some (timedOut limit next, w)
  | .reaching _ limit _ _ _ next, w => some (timedOut limit next, w)
  | .queued t limit _ call _ next, w => some (timedOut limit next, leaveQueue w t call)
  | .stalled _ limit _ next, w => some (timedOut limit next, w)
  | _, _ => none

/-- The next thing a plan does. -/
def stepPlan? : Plan α → World → Option (Task α × World)
  | .done _, _ => none
  | .poll next, w => some (.planned (next w.isCancelled), w)
  | .now next, w => some (.planned (next w.now), w)
  | .start next, w =>
    match w.start with
    | (.answer r, w) => some (.planned (next r), w)
    | (_, w) => some (.lost, w)
  | .attempt t limit work next, w => some (.working t limit (w.elapsed + limit.nanos) work next, w)
  | .finish t how next, w =>
    match w.finish t how with
    | (.answer r, w) => some (.planned (next r), w)
    | (_, w) => some (.lost, w)
  | .pause span next, w =>
    let task := if w.restless then .aside next else .asleep (w.elapsed + span.nanos) next
    some (task, w.logPause span)
  | .query q next, w =>
    match w.query q with
    | (.answer r, w) => some (.planned (next r), w)
    | (_, w) => some (.lost, w)

/-- The work after a call was answered. -/
def answered (t : Tx) (limit : Span) (deadline : Nat) (call : Touch)
    (rest : call.Answer → Work Candidate) (next : Except Error Candidate → Plan α) :
    Except LedgerError call.Answer → Task α
  | .ok a => .working t limit deadline (rest a) next
  | .error e => .planned (next (.error (.ledger e)))

/-- The next thing that work does. -/
def stepWork (t : Tx) (limit : Span) (deadline : Nat) (next : Except Error Candidate → Plan α) :
    Work Candidate → World → Task α × World
  | .done c, w => (.planned (next (.ok c)), w)
  | .fail e, w => (.planned (next (.error e)), w)
  | .now rest, w => (.working t limit deadline (rest w.now) next, w)
  | .draw n rest, w =>
    (.working t limit deadline (rest (w.takeWords n).1) next, (w.takeWords n).2)
  | .note a rest, w => (.working t limit deadline rest next, w.note a)
  | .touch c rest, w =>
    match w.submitTouch c with
    | (some (.answer r), w) => (answered t limit deadline c rest next r, w)
    | (some _, w) => (.stalled t limit deadline next, w)
    | (none, w) => (.reaching t limit deadline c rest next, w)

/-- The next thing a task does, if it can do anything now. Work that can go on does so, even past
its deadline. -/
def step? : Task α → World → Option (Task α × World)
  | .planned p, w => stepPlan? p w
  | .asleep wake p, w => if wake ≤ w.elapsed then some (.planned p, w) else none
  | .aside p, w => some (.planned p, w)
  | .working t limit deadline work next, w => some (stepWork t limit deadline next work w)
  | .reaching t limit deadline c rest next, w =>
    match w.reach t c with
    | (.answer r, w) => some (answered t limit deadline c rest next r, w)
    | (_, w) => some (.queued t limit deadline c rest next, joinQueue w t c)
  | .queued t limit deadline c rest next, w =>
    if Granted w t c then
      match w.reach t c with
      | (.answer r, w) => some (answered t limit deadline c rest next r, w)
      | (_, _) => none
    else if deadline ≤ w.elapsed then giveUp? (.queued t limit deadline c rest next) w
    else none
  | .stalled t limit deadline next, w =>
    if deadline ≤ w.elapsed then giveUp? (.stalled t limit deadline next) w else none
  | .lost, _ => none

/-- The world after a task is left: it queues for nothing any more. -/
def leave (w : World) : Task α → World
  | .queued t _ _ c _ _ => leaveQueue w t c
  | _ => w

/-- The world after a task is dropped, along with the transaction of its attempt. -/
def drop (w : World) (task : Task α) : World :=
  match task.attempt? with
  | some t => { task.leave w with ledger := (task.leave w).ledger.finish t .abort }
  | none => task.leave w

/-- Whether the task can do anything now. -/
def canAct (task : Task α) (w : World) : Bool := (task.step? w).isSome

/-- Whether the next thing a task does is to end a wait, or to see whether there is one: it wakes
up, gives up, or asks for a key that it does not have. -/
def EndsWait (w : World) : Task α → Prop
  | .asleep .. | .queued .. | .stalled .. => True
  | .reaching t _ _ c .. => ¬ Granted w t c
  | _ => False

instance (w : World) (task : Task α) : Decidable (task.EndsWait w) := by
  cases task <;> unfold EndsWait <;> infer_instance

end Task

end Docket
