import Docket.Proofs.Issue.Shape
import Docket.Proofs.Run.Calm
import Docket.Proofs.Run.Stalls

/-!
# Attempts one after another

A loop goes from attempt to attempt until one settles the matter, there have been as many as may be,
or somebody says to stop. How its attempts ended tells what it comes to.

* **`retrying_attempted`**: a loop comes to the conclusion of its attempts.
-/

namespace Docket

variable {r : RetrySettings} {attempt : Plan Attempt} {left a : Nat} {last : Option LedgerError}
  {w v u : World} {x : Attempt} {xs before : List Attempt} {P : Call → Prop}

/-! ## What attempts come to -/

/-- What an attempt settles for good. -/
def Attempt.settled? : Attempt → Option (Except Error String)
  | .issued id => some (.ok id)
  | .fatal e => some (.error e)
  | .collided | .transient _ => none

/-- What an attempt failed with that may pass. -/
def Attempt.failure? : Attempt → Option LedgerError
  | .transient e => some e
  | _ => none

theorem Attempt.ofError_of_not_transient {e : Error} (h : e.isTransient = false) :
    ofError e = .fatal e := by
  cases e with
  | ledger e => exact if_neg (by rw [show e.isTransient = false from h]; nofun)
  | _ => rfl

namespace RetrySettings

/-- The pause that an attempt with a number calls for. -/
def pauseAfter (r : RetrySettings) (a : Nat) (x : Attempt) : Option Span :=
  if x.failure?.isSome ∧ a < r.maxAttempts then some (r.backoff a) else none

theorem pauseAfter_collided : r.pauseAfter a .collided = none := if_neg fun h => nomatch h.1

theorem pauseAfter_transient (e : LedgerError) : r.pauseAfter a (.transient e) =
    if a < r.maxAttempts then some (r.backoff a) else none := by
  simp only [pauseAfter, Attempt.failure?, Option.isSome_some, true_and]

/-- What attempts come to: what the last one settles, or that they are all that may be made, with
the latest failure, or that there are no more. -/
def conclusion (r : RetrySettings) (xs : List Attempt) : Except Error String :=
  match xs.getLast?.bind Attempt.settled? with
  | some result => result
  | none =>
    if xs.length = r.maxAttempts then
      .error (.exhausted r.maxAttempts (xs.filterMap Attempt.failure?).getLast?)
    else .error .cancelled

theorem conclusion_of_settled {result : Except Error String} (settled : x.settled? = some result) :
    r.conclusion (before ++ [x]) = result := by
  rw [conclusion, List.getLast?_concat, Option.bind_some, settled]

theorem conclusion_of_unsettled (unsettled : ∀ x ∈ xs, x.settled? = none) :
    r.conclusion xs = if xs.length = r.maxAttempts then
      .error (.exhausted r.maxAttempts (xs.filterMap Attempt.failure?).getLast?)
      else .error .cancelled := by
  have none : xs.getLast?.bind Attempt.settled? = none := by
    rw [Option.bind_eq_none_iff]
    exact fun x hx => unsettled x (List.mem_of_getLast? hx)
  rw [conclusion, none]

end RetrySettings

/-! ## One attempt -/

section One

variable {id : String} {w' : World}

theorem retrying_of_issued (goesOn : w.isCancelled = false)
    (run : attempt.run w = (.finished (.issued id), w')) :
    (retrying r attempt (left + 1) last).run w = (.finished (.ok id), w') := by
  simp only [retrying, Plan.run, goesOn]
  rw [if_neg Bool.false_ne_true, Plan.run_bind, run]
  rfl

theorem retrying_of_fatal {e : Error} (goesOn : w.isCancelled = false)
    (run : attempt.run w = (.finished (.fatal e), w')) :
    (retrying r attempt (left + 1) last).run w = (.finished (.error e), w') := by
  simp only [retrying, Plan.run, goesOn]
  rw [if_neg Bool.false_ne_true, Plan.run_bind, run]
  rfl

theorem retrying_of_collided (goesOn : w.isCancelled = false)
    (run : attempt.run w = (.finished .collided, w')) :
    (retrying r attempt (left + 1) last).run w = (retrying r attempt left last).run w' := by
  simp only [retrying, Plan.run, goesOn]
  rw [if_neg Bool.false_ne_true, Plan.run_bind, run]

theorem retrying_of_transient {e : LedgerError} (goesOn : w.isCancelled = false)
    (run : attempt.run w = (.finished (.transient e), w')) :
    (retrying r attempt (left + 1) last).run w =
      (if left = 0 then retrying r attempt left (some e) else
        .pause (r.backoff (r.maxAttempts - left)) (retrying r attempt left (some e))).run w' := by
  simp only [retrying, Plan.run, goesOn]
  rw [if_neg Bool.false_ne_true, Plan.run_bind, run]

theorem retrying_of_hung (goesOn : w.isCancelled = false) (run : attempt.run w = (.hung, w')) :
    (retrying r attempt (left + 1) last).run w = (.hung, w') := by
  simp only [retrying, Plan.run, goesOn]
  rw [if_neg Bool.false_ne_true, Plan.run_bind, run]

theorem retrying_of_cancelled (told : w.isCancelled) :
    (retrying r attempt (left + 1) last).run w = (.finished (.error .cancelled), w) := by
  simp only [retrying, Plan.run, told]
  rfl

end One

/-! ## All attempts -/

def World.rest (w : World) : Option Span → World
  | none => w
  | some span =>
    { w.logPause span with
      elapsed := if w.restless then w.elapsed else w.elapsed + span.nanos }

theorem World.run_pause (patient : w.horizon = none) {α : Type} (span : Span) (next : Plan α) :
    (Plan.pause span next).run w = next.run (w.rest (some span)) := by
  have early : w.beyond (w.elapsed + span.nanos) = false := by rw [beyond, patient]; rfl
  rw [Plan.run, early, if_neg Bool.false_ne_true, rest]
  split <;> rfl

theorem World.rest_horizon (w : World) (pause : Option Span) :
    (w.rest pause).horizon = w.horizon := by
  cases pause <;> rfl

theorem World.rest_faults (w : World) (pause : Option Span) :
    (w.rest pause).faults = w.faults := by
  cases pause <;> rfl

theorem World.rest_ledger (w : World) (pause : Option Span) :
    (w.rest pause).ledger = w.ledger := by
  cases pause <;> rfl

/-- Attempts from a number on, in order, with the pauses between them. Each is started before
anybody says to stop, and only the last one may settle anything. -/
inductive Tried (r : RetrySettings) (attempt : Plan Attempt) :
    Nat → World → List Attempt → World → Prop
  | none (a : Nat) (w : World) : Tried r attempt a w [] w
  | last {a : Nat} {w v : World} {x : Attempt} (goesOn : w.isCancelled = false)
      (run : attempt.run w = (.finished x, v)) (settles : x.settled?.isSome) :
      Tried r attempt a w [x] v
  | more {a : Nat} {w v u : World} {x : Attempt} {xs : List Attempt}
      (goesOn : w.isCancelled = false) (run : attempt.run w = (.finished x, v))
      (unsettled : x.settled? = none)
      (rest : Tried r attempt (a + 1) (v.rest (r.pauseAfter a x)) xs u) :
      Tried r attempt a w (x :: xs) u

/-- What a loop comes to that goes on after some attempts: it concludes from all of them, or the
attempt that it has started never ends. -/
def Attempted (r : RetrySettings) (attempt : Plan Attempt) (before : List Attempt) (w : World)
    (result : Run (Except Error String)) (w' : World) : Prop :=
  ∃ xs v, Tried r attempt (before.length + 1) w xs v ∧
    (before ++ xs).length ≤ r.maxAttempts ∧
    match result with
    | .finished x => v = w' ∧ x = r.conclusion (before ++ xs) ∧
        ((∀ x ∈ xs, x.settled? = none) → (before ++ xs).length < r.maxAttempts → w'.isCancelled)
    | .hung => v.isCancelled = false ∧ attempt.run v = (.hung, w') ∧
        (∀ x ∈ xs, x.settled? = none) ∧ (before ++ xs).length < r.maxAttempts

namespace Attempted

variable {w' : World} {y : Except Error String} {result : Run (Except Error String)}

theorem ended (unsettled : ∀ x ∈ before, x.settled? = none) (few : before.length ≤ r.maxAttempts)
    (told : before.length < r.maxAttempts → w.isCancelled) :
    Attempted r attempt before w (.finished (if before.length = r.maxAttempts then
      .error (.exhausted r.maxAttempts (before.filterMap Attempt.failure?).getLast?)
      else .error .cancelled)) w := by
  refine ⟨[], w, .none _ w, ?_⟩
  rw [List.append_nil]
  exact ⟨few, rfl, (RetrySettings.conclusion_of_unsettled unsettled).symm, fun _ => told⟩

theorem settled (goesOn : w.isCancelled = false) (run : attempt.run w = (.finished x, v))
    (settled : x.settled? = some y) (room : before.length < r.maxAttempts) :
    Attempted r attempt before w (.finished y) v := by
  refine ⟨[x], v, .last goesOn run (by rw [settled]; rfl), ?_, rfl, ?_, fun none => ?_⟩
  · rw [List.length_append, List.length_singleton]
    exact room
  · exact (RetrySettings.conclusion_of_settled settled).symm
  · rw [none x (List.mem_singleton_self x)] at settled
    cases settled

theorem hung (goesOn : w.isCancelled = false) (run : attempt.run w = (.hung, w'))
    (room : before.length < r.maxAttempts) : Attempted r attempt before w .hung w' := by
  refine ⟨[], w, .none _ w, ?_⟩
  rw [List.append_nil]
  exact ⟨Nat.le_of_lt room, goesOn, run, nofun, room⟩

theorem onward (goesOn : w.isCancelled = false) (run : attempt.run w = (.finished x, v))
    (unsettled : x.settled? = none)
    (rest : Attempted r attempt (before ++ [x]) (v.rest (r.pauseAfter (before.length + 1) x))
      result w') : Attempted r attempt before w result w' := by
  obtain ⟨xs, u, tried, few, ends⟩ := rest
  have all (h : ∀ y ∈ xs, y.settled? = none) : ∀ y ∈ x :: xs, y.settled? = none :=
    List.forall_mem_cons.mpr ⟨unsettled, h⟩
  rw [List.length_append, List.length_singleton] at tried
  rw [List.append_assoc, List.singleton_append] at few ends
  refine ⟨x :: xs, u, .more goesOn run unsettled tried, few, ?_⟩
  cases result with
  | finished y =>
    exact ⟨ends.1, ends.2.1, fun none => ends.2.2 (List.forall_mem_cons.mp none).2⟩
  | hung => exact ⟨ends.1, ends.2.1, all ends.2.2.1, ends.2.2.2⟩

end Attempted

/-- **A loop comes to the conclusion of its attempts**, unless one of them never ends. -/
theorem retrying_attempted (made : attempt.Makes P) (patient : w.horizon = none)
    (unsettled : ∀ x ∈ before, x.settled? = none) (count : before.length + left = r.maxAttempts) :
    let run := (retrying r attempt left (before.filterMap Attempt.failure?).getLast?).run w
    Attempted r attempt before w run.1 run.2 := by
  -- With each attempt that settles nothing there is one more before and one less left.
  induction left generalizing before w with
  | zero =>
    have full : before.length = r.maxAttempts := count
    have ended : Attempted r attempt before w _ w := .ended unsettled (Nat.le_of_eq full)
      fun lt => absurd full (Nat.ne_of_lt lt)
    rwa [if_pos full] at ended
  | succ left ih =>
    have room : before.length < r.maxAttempts := by omega
    cases goesOn : w.isCancelled with
    | true =>
      have ended : Attempted r attempt before w _ w := .ended unsettled (Nat.le_of_lt room)
        fun _ => goesOn
      rw [if_neg (Nat.ne_of_lt room)] at ended
      rwa [retrying_of_cancelled goesOn]
    | false =>
      obtain ⟨calls, follows, -⟩ := Plan.run_follows made w
      cases run : attempt.run w with | mk result v
      rw [run] at follows
      have patient' : v.horizon = none := follows.horizon.trans patient
      have more {x : Attempt} : (before ++ [x]).length + left = r.maxAttempts := by
        rw [List.length_append, List.length_singleton]
        omega
      have unsettled' {x : Attempt} (h : x.settled? = none) :
          ∀ y ∈ before ++ [x], y.settled? = none :=
        List.forall_mem_append.mpr ⟨unsettled, List.forall_mem_singleton.mpr h⟩
      match result with
      | .hung => exact retrying_of_hung goesOn run ▸ .hung goesOn run room
      | .finished (.issued id) =>
        exact retrying_of_issued goesOn run ▸ .settled goesOn run rfl room
      | .finished (.fatal e) =>
        exact retrying_of_fatal goesOn run ▸ .settled goesOn run rfl room
      | .finished .collided =>
        have next := ih patient' (unsettled' (x := .collided) rfl) more
        have same : (before ++ [Attempt.collided]).filterMap Attempt.failure? =
            before.filterMap Attempt.failure? := by
          rw [List.filterMap_append, List.filterMap_cons_none rfl, List.filterMap_nil,
            List.append_nil]
        rw [same] at next
        rw [retrying_of_collided goesOn run]
        refine .onward goesOn run rfl ?_
        rwa [RetrySettings.pauseAfter_collided]
      | .finished (.transient e) =>
        have next (pause : Option Span) := ih ((v.rest_horizon pause).trans patient')
          (unsettled' (x := .transient e) rfl) more
        simp only [List.filterMap_append, List.filterMap_cons, List.filterMap_nil,
          Attempt.failure?, List.getLast?_concat] at next
        rw [retrying_of_transient goesOn run]
        refine .onward goesOn run rfl ?_
        rw [RetrySettings.pauseAfter_transient]
        by_cases full : left = 0
        · rw [if_pos full, if_neg (by omega)]
          exact next _
        · have number : r.maxAttempts - left = before.length + 1 := by omega
          rw [if_neg full, if_pos (by omega), number, World.run_pause patient']
          exact next _

/-! ## The calls of attempts and issues -/

def Call.InAttempt : Call → Prop
  | .start | .finish _ | .touch _ => True
  | .pause _ | .query _ => False

/-- Whether a call is made by issues: their attempts make it, or it is a pause. -/
def Call.InIssue : Call → Prop
  | .query _ => False
  | _ => True

/-- What an issue loses outside its attempts opens or ends a transaction. -/
theorem World.Traces.hung_iff {α : Type} {result : Run α × World}
    (h : w.Traces Call.InIssue result) (patient : w.horizon = none) :
    ∃ calls, w.Follows result.2 calls ∧ (result.1 = .hung ↔ Lost w.faults Call.Deals calls) := by
  obtain ⟨calls, follows, made, hung⟩ := h
  refine ⟨calls, follows, (hung patient).trans (lost_congr fun c hc filed => ?_)⟩
  cases c with
  | start | finish how => exact Iff.rfl
  | touch c => exact Iff.rfl
  | query q => exact (made _ hc).elim
  | pause span => cases filed

theorem makes_retrying (h : attempt.Makes P) (pauses : ∀ span, P (.pause span)) :
    (retrying r attempt left last).Makes P := by
  induction left generalizing last with
  | zero => trivial
  | succ left ih =>
    intro stop
    cases stop with
    | true => trivial
    | false =>
      refine h.bind fun x => ?_
      cases x with
      | issued | fatal => trivial
      | collided => exact ih
      | transient e =>
        dsimp only
        split
        · exact ih
        · exact ⟨pauses _, ih⟩

namespace Series

variable (s : Series) (r : RetrySettings) (t : Tx)

theorem makes_attemptIn (touches : ∀ c, P (.touch c)) : (s.attemptIn r t).Makes P :=
  ⟨Work.makes_of_touch _ touches, fun _ => trivial⟩

theorem makes_close (finish : ∀ how, P (.finish how)) (result : Except Error Candidate) :
    (Attempt.close t result).Makes P := by
  match result with
  | .ok (.clear id) =>
    refine ⟨finish _, ?_⟩
    rintro (e | _) <;> trivial
  | .ok (.taken _) | .error _ => exact ⟨finish _, fun _ => trivial⟩

theorem makes_attemptAlone (touches : ∀ c, P (.touch c)) (start : P .start)
    (finish : ∀ how, P (.finish how)) : (s.attemptAlone r).Makes P := by
  rw [attemptAlone_eq]
  refine ⟨start, ?_⟩
  rintro (e | t)
  · trivial
  · exact ⟨Work.makes_of_touch _ touches, makes_close t finish⟩

theorem makes_issueIn : (s.issueIn r t).Makes Call.InIssue :=
  makes_retrying (s.makes_attemptIn r t fun _ => trivial) fun _ => trivial

theorem makes_issueOne : (s.issueOne r).Makes Call.InIssue :=
  makes_retrying (s.makes_attemptAlone r (fun _ => trivial) trivial fun _ => trivial)
    fun _ => trivial

theorem makes_issueRest (left : Nat) (ids : List String) :
    (s.issueRest r t left ids).Makes Call.InIssue := by
  induction left generalizing ids with
  | zero =>
    refine ⟨trivial, ?_⟩
    rintro (e | _) <;> trivial
  | succ left ih =>
    refine (s.makes_issueIn r t).bind ?_
    rintro (e | id)
    · exact ⟨trivial, fun _ => trivial⟩
    · exact ih _

theorem makes_issueBatch (n : Nat) : (s.issueBatch r n).Makes Call.InIssue := by
  unfold issueBatch
  split
  · trivial
  · rintro (_ | _)
    · refine ⟨trivial, ?_⟩
      rintro (e | t)
      · trivial
      · exact s.makes_issueRest r t n []
    · trivial

/-! ## Issues of one identifier -/

/-- **An issue of one identifier** comes to the conclusion of its attempts. -/
theorem issueOne_attempted (patient : w.horizon = none) :
    Attempted r (s.attemptAlone r) [] w ((s.issueOne r).run w).1 ((s.issueOne r).run w).2 :=
  retrying_attempted (s.makes_attemptAlone r (P := fun _ => True) (fun _ => trivial) trivial
    fun _ => trivial) patient nofun (Nat.zero_add _)

@[inherit_doc issueOne_attempted]
theorem issueIn_attempted (t : Tx) (patient : w.horizon = none) :
    Attempted r (s.attemptIn r t) [] w ((s.issueIn r t).run w).1 ((s.issueIn r t).run w).2 :=
  retrying_attempted (s.makes_attemptIn r t (P := fun _ => True) fun _ => trivial) patient nofun
    (Nat.zero_add _)

end Series

end Docket
