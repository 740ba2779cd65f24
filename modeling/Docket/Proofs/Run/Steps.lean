import Docket.Proofs.Callers.Owner
import Docket.Proofs.Ledger.Archive
import Docket.Proofs.Ledger.Queue
import Docket.Proofs.Run.Course

/-!
# Plans step by step

A plan that runs alone can also be carried out one thing at a time. Where it has to wait for a key
it joins the queue, time passes, and it leaves the queue again. All that comes to what the run says.

* `Task.Steps`: any number of things that a task does or waits for, one after another;
* `Work.steps_of_run`, **`Plan.steps_of_run`**: work and plans step by step.
-/

namespace Docket

variable {α β : Type} {n : Nat} {l : Ledger} {w w' : World} {t : Tx} {how : Ending} {c : Touch}
  {locks : LockTable} {key : String}

/-! ## New transactions -/

namespace Plan

/-- A plan works in no transactions but those from number `n` on. -/
def Since (n : Nat) : Plan α → Prop
  | .done _ => True
  | .poll next => ∀ b, (next b).Since n
  | .now next => ∀ time, (next time).Since n
  | .start next => ∀ r, (∀ t, r = .ok t → n ≤ t.serial) → (next r).Since n
  | .attempt t _ _ next => n ≤ t.serial ∧ ∀ r, (next r).Since n
  | .finish t _ next => n ≤ t.serial ∧ ∀ r, (next r).Since n
  | .pause _ next => next.Since n
  | .query _ next => ∀ r, (next r).Since n

theorem Since.bind {p : Plan α} {f : α → Plan β} (h : p.Since n) (hf : ∀ a, (f a).Since n) :
    (p.bind f).Since n := by
  induction p with
  | done a => exact hf a
  | poll next ih | now next ih | query q next ih => exact fun r => ih r (h r)
  | start next ih => exact fun r opened => ih r (h r opened)
  | attempt t limit work next ih => exact ⟨h.1, fun r => ih r (h.2 r)⟩
  | finish t how next ih => exact ⟨h.1, fun r => ih r (h.2 r)⟩
  | pause span next ih => exact ih h

end Plan

/-- No transaction from number `n` on queues for a key, and new ones are among them. -/
structure Ledger.Unqueued (l : Ledger) (n : Nat) : Prop where
  begun : n ≤ l.begun
  queues : ∀ key, ∀ t ∈ (l.locks.lock key).queue, t < n

namespace Ledger.Unqueued

theorem start (h : l.Unqueued n) : l.start.2.Unqueued n := ⟨Nat.le_succ_of_le h.begun, h.queues⟩

theorem wrote (h : l.Unqueued n) (hl : l.lockFor? t c = some locks) :
    (l.wrote c locks).Unqueued n := by
  refine ⟨h.begun, fun key => ?_⟩
  unfold lockFor? at hl
  split at hl
  · next k hk =>
    show ∀ t ∈ (locks.lock key).queue, t < n
    rw [LockTable.lock_take? hl]
    split
    · exact h.queues k
    · exact h.queues key
  · cases hl
    exact h.queues key

theorem finish (h : l.Unqueued n) : (l.finish t how).Unqueued n := by
  have ended : ∀ key, ∀ u ∈ ((l.locks.release t.serial).lock key).queue, u < n := by
    intro key u hu
    rw [LockTable.lock_release, Lock.letGo] at hu
    split at hu
    · exact h.queues key u (List.mem_of_mem_tail hu)
    · exact h.queues key u hu
  unfold Ledger.finish
  split
  · cases how <;> exact ⟨h.begun, ended⟩
  · exact h

theorem query (h : l.Unqueued n) (q : Query) : (l.query q).2.Unqueued n := by
  cases q <;> exact ⟨h.begun, h.queues⟩

end Ledger.Unqueued

theorem Ledger.Unqueued.serial_of_start (h : w.ledger.Unqueued n)
    (opened : w.start.1 = .answer (.ok t)) : n ≤ t.serial := by
  rcases w.start_cases with ⟨e, v, -, he⟩ | ⟨v, -, he⟩ | ⟨v, still, he⟩ <;> rw [he] at opened <;>
    cases opened
  rw [still.ledger]
  exact h.begun

namespace Task

/-! ## Steps -/

/-- The next thing that a task does, or the time that has to pass before there is one. -/
def onward? (task : Task α) (w : World) : Option (Task α × World) :=
  (task.step? w).or <|
    (task.wake?.filter fun time => !w.beyond time).map fun time =>
      (task, { w with elapsed := time })

/-- A task goes on by one thing, which leaves a ledger with `R`. -/
def Step (R : Ledger → Prop) (x y : Task α × World) : Prop :=
  x.1.onward? x.2 = some y ∧ R y.2.ledger

abbrev Steps (R : Ledger → Prop) : Task α × World → Task α × World → Prop :=
  Relation.ReflTransGen (Step R)

variable {R : Ledger → Prop} {task task' : Task α} {x : Task α × World} {limit : Span}
  {deadline : Nat} {next : Except Error Candidate → Plan α} {rest : c.Answer → Work Candidate}

namespace Steps

theorem act (step : task.step? w = some (task', w')) (kept : R w'.ledger)
    (rest : Steps R (task', w') x) : Steps R (task, w) x :=
  .head ⟨by rw [onward?, step, Option.some_or], kept⟩ rest

theorem wait (wake : task.wake? = some deadline)
    (step : ∀ time, task.step? { w with elapsed := time } =
      if deadline ≤ time then some (task', { w' with elapsed := time }) else none)
    (early : w.elapsed ≤ deadline) (soon : w.beyond deadline = false) (before : R w.ledger)
    (after : R w'.ledger) : Steps R (task, w) (task', { w' with elapsed := deadline }) := by
  have acts : task.step? { w with elapsed := deadline } =
      some (task', { w' with elapsed := deadline }) := by rw [step, if_pos (Nat.le_refl _)]
  rcases Nat.eq_or_lt_of_le early with now | early
  · rw [← now] at acts ⊢
    exact act acts after .refl
  · have idle : task.step? w = none := (step w.elapsed).trans (if_neg (Nat.not_le.mpr early))
    have passes : task.onward? w = some (task, { w with elapsed := deadline }) := by
      rw [onward?, idle, Option.none_or, wake, Option.filter_some, soon]
      rfl
    exact .trans (.single ⟨passes, before⟩) (act acts after .refl)

end Steps

/-! ## Waiting for a key -/

/-- A task that queues for a key which another transaction holds gives up at its deadline, and its
transaction queues for nothing then. -/
theorem step?_queued (held : w.ledger.lockFor? t c = none) (fresh : w.ledger.Unqueued n)
    (recent : n ≤ t.serial) (time : Nat) :
    (queued t limit deadline c rest next).step? { joinQueue w t c with elapsed := time } =
      if deadline ≤ time then some (timedOut limit next, { w with elapsed := time }) else none := by
  obtain ⟨key, hk⟩ : ∃ key, c.key? = some key := by
    cases hk : c.key? with
    | none => rw [Ledger.lockFor?, hk] at held; cases held
    | some key => exact ⟨key, rfl⟩
  rw [Ledger.lockFor?, hk] at held
  have joined : joinQueue w t c =
      { w with ledger.locks := w.ledger.locks.join t.serial key } := by rw [joinQueue, hk]
  have waits : ¬ Granted { joinQueue w t c with elapsed := time } t c := by
    obtain ⟨u, hu, ne⟩ := LockTable.take?_eq_none_iff.mp held
    intro granted
    have mine := granted key hk
    rw [joined] at mine
    exact ne (hu.join.unique mine)
  have left : leaveQueue { joinQueue w t c with elapsed := time } t c =
      { w with elapsed := time } := by
    have new : t.serial ∉ (w.ledger.locks.lock key).queue := fun mem =>
      Nat.lt_irrefl _ (Nat.lt_of_lt_of_le (fresh.queues key _ mem) recent)
    rw [joined, leaveQueue, hk]
    simp only [LockTable.leave_join held new]
  simp only [step?, if_neg waits, giveUp?, left]

end Task

open Docket.Task (Steps)

/-! ## Work and plans -/

section Steps

variable {R : Ledger → Prop} {deadline : Nat}

/-- What an attempt comes to that has to end by a deadline. -/
def Halt.leads (limit : Span) (deadline : Nat) (next : Except Error Candidate → Plan α) :
    Halt Candidate × World → Task α × World
  | (.finished r, w) => (.planned (next r), w)
  | (.stuck, w) => (Task.timedOut limit next, { w with elapsed := deadline })

/-- **Work step by step** comes to what its run says, if waiting for a key leaves `R` as it is. -/
theorem Work.steps_of_run (limit : Span) (next : Except Error Candidate → Plan α)
    (waiting : ∀ l t c, R l → R (l.joining t c)) (recent : n ≤ t.serial)
    {work : Work Candidate} (fresh : w.ledger.Unqueued n)
    (kept : ∀ v ∈ work.course t w, R v.ledger) (early : w.elapsed ≤ deadline)
    (soon : (work.run t w).1 = .stuck → (work.run t w).2.beyond deadline = false) :
    (work.run t w).2.ledger.Unqueued n ∧
      Steps R (.working t limit deadline work next, w)
        (Halt.leads limit deadline next (work.run t w)) := by
  have here := kept w (work.mem_course t w)
  induction work generalizing w with
  | done | fail => exact ⟨fresh, .act rfl here .refl⟩
  | now rest ih =>
    obtain ⟨fresh', steps⟩ := ih w.now fresh kept early soon here
    exact ⟨fresh', .act rfl here steps⟩
  | draw k rest ih =>
    rw [course, List.forall_mem_cons] at kept
    obtain ⟨fresh', steps⟩ := ih _ (w := (w.takeWords k).2) fresh kept.2 early soon here
    exact ⟨fresh', .act rfl here steps⟩
  | note a rest ih =>
    rw [course, List.forall_mem_cons] at kept
    obtain ⟨fresh', steps⟩ := ih (w := w.note a) fresh kept.2 early soon here
    exact ⟨fresh', .act rfl here steps⟩
  | touch c rest ih =>
    simp only [course, List.forall_mem_cons] at kept
    obtain ⟨-, later⟩ := kept
    rcases hs : w.submitTouch c with ⟨reply, v⟩
    have still : v.ledger = w.ledger := by rw [show v = (w.submitTouch c).2 by rw [hs]]; rfl
    have early : v.elapsed ≤ deadline := by rwa [show v = (w.submitTouch c).2 by rw [hs]]
    rw [← still] at fresh here
    cases reply with
    | none =>
      have touch : w.touch t c = v.reach t c := by rw [World.touch, hs]
      have asks : (Task.working t limit deadline (.touch c rest) next).step? w =
          some (.reaching t limit deadline c rest next, v) := by
        rw [Task.step?, Task.stepWork, hs]
      simp only [run, touch] at soon later ⊢
      rcases v.reach_cases t c with ⟨e, reach⟩ | ⟨locks, ht, hl, reach⟩ | ⟨ht, hl, reach⟩ <;>
        rw [reach] at soon later ⊢
      · have fails : (Task.reaching t limit deadline c rest next).step? v =
            some (.planned (next (.error (.ledger e))), v) := by rw [Task.step?, reach]; rfl
        exact ⟨fresh, .act asks here (.act fails here .refl)⟩
      · generalize c.answer _ _ = r at reach soon later ⊢
        have answers : (Task.reaching t limit deadline c rest next).step? v =
            some (Task.answered t limit deadline c rest next r,
              { v with ledger := v.ledger.wrote c locks }) := by rw [Task.step?, reach]
        cases r with
        | ok a =>
          have kept := later _ ((rest a).mem_course t _)
          obtain ⟨fresh', steps⟩ := ih a (fresh.wrote hl) later early soon kept
          exact ⟨fresh', .act asks here (.act answers kept steps)⟩
        | error e =>
          have kept := later _ (List.mem_singleton_self _)
          exact ⟨fresh.wrote hl, .act asks here (.act answers kept .refl)⟩
      · have joins : (Task.reaching t limit deadline c rest next).step? v =
            some (.queued t limit deadline c rest next, Task.joinQueue v t c) := by
          rw [Task.step?, reach]
        have queued : R (Task.joinQueue v t c).ledger := by
          rw [Task.joinQueue_eq]
          exact waiting _ t c here
        have waits : Steps R (.queued t limit deadline c rest next, Task.joinQueue v t c)
            (Task.timedOut limit next, { v with elapsed := deadline }) := by
          refine .wait rfl (Task.step?_queued hl fresh recent) ?_ ?_ queued here <;>
            rw [Task.joinQueue_eq]
          · exact early
          · exact soon rfl
        exact ⟨fresh, .act asks here (.act joins queued waits)⟩
    | some reply =>
      cases reply with
      | answer r =>
        have touch : w.touch t c = (.answer r, v) := by rw [World.touch, hs]
        have answers : (Task.working t limit deadline (.touch c rest) next).step? w =
            some (Task.answered t limit deadline c rest next r, v) := by
          rw [Task.step?, Task.stepWork, hs]
        simp only [run, touch] at soon later ⊢
        cases r with
        | ok a =>
          obtain ⟨fresh', steps⟩ := ih a fresh later early soon here
          exact ⟨fresh', .act answers here steps⟩
        | error e => exact ⟨fresh, .act answers here .refl⟩
      | waits | never =>
        have stalls : (Task.working t limit deadline (.touch c rest) next).step? w =
            some (.stalled t limit deadline next, v) := by rw [Task.step?, Task.stepWork, hs]
        simp only [run, World.touch, hs] at soon later ⊢
        exact ⟨fresh, .act stalls here (.wait rfl (fun _ => rfl) early (soon trivial) here here)⟩

/-- **A plan step by step** comes to what its run says, if waiting for a key leaves `R` as it
is. -/
theorem Plan.steps_of_run (waiting : ∀ l t c, R l → R (l.joining t c)) {p : Plan α} {a : α}
    (since : p.Since n) (fresh : w.ledger.Unqueued n) (kept : ∀ v ∈ p.course w, R v.ledger)
    (run : p.run w = (.finished a, w')) : Steps R (.planned p, w) (.planned (.done a), w') := by
  have here := kept w (p.mem_course w)
  induction p generalizing w with
  | done b =>
    cases run
    exact .refl
  | poll next ih => exact .act rfl here (ih _ (since _) fresh kept run here)
  | now next ih => exact .act rfl here (ih _ (since _) fresh kept run here)
  | start next ih =>
    simp only [course, List.forall_mem_cons] at kept
    obtain ⟨-, later⟩ := kept
    rw [Plan.run] at run
    rcases w.start_cases with ⟨e, v, still, h⟩ | ⟨v, still, h⟩ | ⟨v, still, h⟩ <;>
      rw [h] at run later
    · have asks : (Task.planned (.start next)).step? w =
          some (.planned (next (.error e)), v) := by rw [Task.step?, Task.stepPlan?, h]
      have kept := later _ ((next (.error e)).mem_course v)
      refine .act asks kept (ih _ (since _ fun t e => ?_) (still.ledger ▸ fresh) later run kept)
      cases e
    · cases run
    · have asks : (Task.planned (.start next)).step? w =
          some (.planned (next (.ok v.ledger.start.1)), { v with ledger := v.ledger.start.2 }) := by
        rw [Task.step?, Task.stepPlan?, h]
      rw [← still.ledger] at fresh
      have kept := later _ ((next (.ok v.ledger.start.1)).mem_course _)
      refine .act asks kept (ih _ (since _ fun t e => ?_) fresh.start later run kept)
      cases e
      exact fresh.begun
  | finish t how next ih =>
    simp only [course, List.forall_mem_cons] at kept
    obtain ⟨-, later⟩ := kept
    rw [Plan.run] at run
    rcases w.finish_cases t how with ⟨v, still, h⟩ | ⟨r, how', v, still, h⟩ <;>
      rw [h] at run later
    · cases run
    · have asks : (Task.planned (.finish t how next)).step? w =
          some (.planned (next r), { v with ledger := v.ledger.finish t how' }) := by
        rw [Task.step?, Task.stepPlan?, h]
      rw [← still.ledger] at fresh
      have kept := later _ ((next r).mem_course _)
      exact .act asks kept (ih _ (since.2 r) fresh.finish later run kept)
  | query q next ih =>
    simp only [course, List.forall_mem_cons] at kept
    obtain ⟨-, later⟩ := kept
    rw [Plan.run] at run
    rcases w.query_cases q with ⟨e, v, still, h⟩ | ⟨v, still, h⟩ | ⟨v, still, h⟩ <;>
      rw [h] at run later
    · have asks : (Task.planned (.query q next)).step? w =
          some (.planned (next (.error e)), v) := by rw [Task.step?, Task.stepPlan?, h]
      have kept := later _ ((next (.error e)).mem_course v)
      exact .act asks kept (ih _ (since _) (still.ledger ▸ fresh) later run kept)
    · cases run
    · have asks : (Task.planned (.query q next)).step? w =
          some (.planned (next (.ok (v.ledger.query q).1)),
            { v with ledger := (v.ledger.query q).2 }) := by rw [Task.step?, Task.stepPlan?, h]
      rw [← still.ledger] at fresh
      have kept := later _ ((next (.ok (v.ledger.query q).1)).mem_course _)
      exact .act asks kept (ih _ (since _) (fresh.query q) later run kept)
  | attempt t limit work next ih =>
    simp only [course, List.forall_mem_append] at kept
    obtain ⟨during, later⟩ := kept
    have begins : (Task.planned (.attempt t limit work next)).step? w =
        some (.working t limit (w.elapsed + limit.nanos) work next, w) := rfl
    have time := work.run_elapsed t w
    have steps := Work.steps_of_run limit next waiting since.1 fresh during
      (Nat.le_add_right w.elapsed limit.nanos)
    rw [Plan.run] at run
    generalize work.run t w = result at time steps later run
    obtain ⟨_ | _, v⟩ := result
    · obtain ⟨fresh', steps⟩ := steps fun stuck => by cases stuck
      have kept := later _ ((next _).mem_course v)
      exact .act begins here (steps.trans (ih _ (since.2 _) fresh' later run kept))
    · dsimp only at time later run
      rw [time] at later run
      split_ifs at run later with late
      · cases run
      · obtain ⟨fresh', steps⟩ := steps fun _ => Bool.eq_false_iff.mpr late
        have kept := later _ ((next _).mem_course _)
        exact .act begins here (steps.trans (ih _ (since.2 _) fresh' later run kept))
  | pause span next ih =>
    simp only [course, List.forall_mem_cons] at kept
    obtain ⟨-, later⟩ := kept
    rw [Plan.run] at run
    split_ifs at run later with restless late
    · have lets : (Task.planned (.pause span next)).step? w =
          some (.aside next, w.logPause span) := by
        rw [Task.step?, Task.stepPlan?, if_pos restless]
      exact .act lets here (.act rfl here (ih since fresh later run here))
    · cases run
    · have sleeps : (Task.planned (.pause span next)).step? w =
          some (.asleep (w.elapsed + span.nanos) next, w.logPause span) := by
        rw [Task.step?, Task.stepPlan?, if_neg restless]
      have wakes : Steps R (.asleep (w.elapsed + span.nanos) next, w.logPause span)
          (.planned next, { w.logPause span with elapsed := w.elapsed + span.nanos }) :=
        .wait rfl (fun _ => rfl) (Nat.le_add_right w.elapsed span.nanos)
          (Bool.eq_false_iff.mpr late) here here
      exact .act sleeps here (wakes.trans (ih since fresh later run here))

/-- A plan comes to a value, whether it is run or goes step by step, and each step leaves a ledger
with `R`. -/
structure Plan.ComesTo (p : Plan α) (R : Ledger → Prop) (w : World) (a : α) (w' : World) :
    Prop where
  run : p.run w = (.finished a, w')
  steps : Steps R (.planned p, w) (.planned (.done a), w')

theorem Plan.Ensures.comesTo {p : Plan α} {Q : α → World → Prop}
    (h : p.Ensures (R ·.ledger) False Q w) (waiting : ∀ l t c, R l → R (l.joining t c))
    (since : p.Since n) (fresh : w.ledger.Unqueued n) : ∃ a v, Q a v ∧ p.ComesTo R w a v := by
  obtain ⟨a, run⟩ := h.returns not_false
  exact ⟨a, _, h.finished run, Prod.ext run rfl,
    steps_of_run waiting since fresh h.course (Prod.ext run rfl)⟩

end Steps

end Docket
