import Docket.Run.Task

/-!
# Running together

Several plans run on one ledger and take turns. A task's turn lasts until it has to wait, lets the
others go first, or is done. A small crew works in rounds, in each of which every task has a turn,
in order. A large crew stands in line: a task has a turn when it is its place in the line, and joins
the line again when what it waits for comes about. When nobody can act, time passes to the next
moment at which somebody can.

* `Manner`, `Crew.turn`: how many waits may end in a round, and a task's turn;
* `Crew.round`, `Crew.rounds`: a small crew;
* `Member`, `Line`, `Line.serve`, `Line.round`, `Line.rounds`: a large crew;
* **`Crew.run`**: what plans come to that run together.
-/

namespace Docket

/-- How a crew shares its time. -/
structure Manner where
  /-- How many waits may end in one round, if there is a limit. A task that would end one more has
  to wait for the next round. -/
  stamina : Option Nat := some 128
  /-- Whether a task that let the others go first joins the line at once. Otherwise such tasks join
  it after the round, the latest first. -/
  prompt : Bool := false
deriving DecidableEq, Repr

namespace Crew

variable {α : Type}

/-- The most plans of a small crew. -/
def smallSize : Nat := 30

/-- A task's turn, of so many steps at most: the task after it, the stamina left, and the world. -/
def turn : Nat → Option Nat → Task α → World → Task α × Option Nat × World
  | 0, stamina, task, w => (task, stamina, w)
  | n + 1, stamina, task, w =>
    if stamina = some 0 ∧ task.EndsWait w then (task, stamina, w)
    else
      match task.step? w with
      | none => (task, stamina, w)
      | some (next, w') =>
        let left := if task.EndsWait w ∧ ¬ next.isQueued then stamina.map (· - 1) else stamina
        if next.isAside then (next, left, w') else turn n left next w'

/-- When the next of some tasks can act that cannot act now, unless that is too late. -/
def nextWake? (tasks : List (Task α)) (w : World) : Option Nat :=
  (tasks.filterMap Task.wake?).min?.filter fun wake => !w.beyond wake

/-! ## Small crews -/

/-- Every task has a turn, in order. -/
def round (fuel : Nat) : Option Nat → List (Task α) → World → List (Task α) × World
  | _, [], w => ([], w)
  | stamina, task :: rest, w =>
    let (task, stamina, w) := turn fuel stamina task w
    let (rest, w) := round fuel stamina rest w
    (task :: rest, w)

/-- So many rounds, or fewer if nobody can go on or the time is up. -/
def rounds (m : Manner) (fuel : Nat) : Nat → List (Task α) → World → List (Task α) × World
  | 0, tasks, w => (tasks, w)
  | n + 1, tasks, w =>
    let (tasks, w) := round fuel m.stamina tasks w
    if w.timeIsUp then (tasks, w)
    else if tasks.any (·.canAct w) then rounds m fuel n tasks w
    else
      match nextWake? tasks w with
      | some wake => rounds m fuel n tasks { w with elapsed := wake }
      | none => (tasks, w)

end Crew

/-! ## Large crews -/

/-- A task of a large crew. -/
structure Member (α : Type) where
  task : Task α
  /-- The attempt whose time limit it last had to wait for. -/
  timed : Option Tx := none
  /-- When it began to wait for that, by the turns so far. -/
  since : Nat := 0

/-- A member that has to wait from turn `now` on, or still has to for the end of one attempt. -/
def Member.park {α : Type} (m : Member α) (now : Nat) : Member α :=
  if m.task.attempt?.isSome ∧ m.timed = m.task.attempt? then m
  else { m with timed := m.task.attempt?, since := now }

/-- A large crew. -/
structure Line (α : Type) where
  /-- Those whose turn comes, in order. -/
  waiting : List (Member α)
  /-- Those that cannot act. -/
  parked : List (Member α) := []
  /-- Those that join the line after the round, in the order in which they will. -/
  later : List (Member α) := []
  /-- The values of those that are done. -/
  values : List α := []
  /-- How many turns there have been. -/
  turns : Nat := 0

namespace Line

variable {α : Type}

/-- How many are not done. -/
def size (l : Line α) : Nat := l.waiting.length + l.parked.length + l.later.length

/-- What those that are not done are at. -/
def tasks (l : Line α) : List (Task α) := (l.waiting ++ l.parked ++ l.later).map (·.task)

/-- Those parked who can act join the line, the longest parked first. -/
def wake (l : Line α) (w : World) : Line α :=
  let (woken, parked) := l.parked.partition (·.task.canAct w)
  { l with waiting := l.waiting ++ woken.mergeSort (fun a b => a.since ≤ b.since), parked }

/-- The line without the first in it, who has had a turn and is now `m`. Those who can act because
of that join the line. -/
def after (l : Line α) (manner : Manner) (m : Member α) (w : World) : Line α :=
  let l := { l with waiting := l.waiting.tail, turns := l.turns + 1 }.wake w
  match m.task.value? with
  | some a => { l with values := a :: l.values }
  | none =>
    if ¬ m.task.canAct w then { l with parked := m.park l.turns :: l.parked }
    else if manner.prompt then { l with waiting := l.waiting ++ [m] }
    else { l with later := m :: l.later }

/-- Turns from the front of the line, `since` of them since somebody was done, until nobody waits or
as many turns have passed without anybody done as there are tasks. -/
def serve (manner : Manner) (fuel : Nat) :
    Nat → Nat → Option Nat → Line α → World → Line α × World
  | 0, _, _, l, w => (l, w)
  | n + 1, since, stamina, l, w =>
    match l.waiting with
    | [] => (l, w)
    | m :: _ =>
      let (task, stamina, w) := Crew.turn fuel stamina m.task w
      let next := l.after manner { m with task } w
      if next.size < l.size then serve manner fuel n 0 stamina next w
      else if since + 1 = l.size then (next, w)
      else serve manner fuel n (since + 1) stamina next w

/-- A round: turns, and then those who let the others go first join the line. -/
def round (manner : Manner) (fuel : Nat) (l : Line α) (w : World) : Line α × World :=
  let (l, w) := l.serve manner fuel fuel 0 manner.stamina w
  ({ l with waiting := l.waiting ++ l.later, later := [] }, w)

/-- So many rounds, or fewer if nobody can go on or the time is up. -/
def rounds (manner : Manner) (fuel : Nat) : Nat → Line α → World → Line α × World
  | 0, l, w => (l, w)
  | n + 1, l, w =>
    let (l, w) := l.round manner fuel w
    if w.timeIsUp then (l, w)
    else if ¬ l.waiting.isEmpty then rounds manner fuel n l w
    else
      match Crew.nextWake? (l.parked.map (·.task)) w with
      | some wake =>
        let w := { w with elapsed := wake }
        rounds manner fuel n (l.wake w) w
      | none => (l, w)

end Line

namespace Crew

variable {α : Type}

/-- Plans run together, with so many steps at most: their values, if all are done. Tasks that are not
done by then are dropped. -/
def run (m : Manner) (fuel : Nat) (plans : List (Plan α)) (w : World) : Option (List α) × World :=
  let tasks := plans.map Task.planned
  if plans.length ≤ smallSize then
    let (tasks, w) := rounds m fuel fuel tasks w
    (tasks.mapM Task.value?, tasks.foldl Task.drop w)
  else
    let (l, w) := Line.rounds m fuel fuel { waiting := tasks.map fun task => { task } } w
    (if l.size = 0 then some l.values else none, l.tasks.foldl Task.drop w)

/-- Steps that are enough for `count` issues of one identifier each: an attempt takes fewer than
30, and each may be followed by one round in which nobody can act. -/
def enough (count maxAttempts : Nat) : Nat := (count + 1) * (maxAttempts + 1) * 64

end Crew

end Docket
