import Docket.Proofs.Issue.Attempts
import Mathlib

/-!
# Issues that come back

The time of an attempt covers its work, and neither the opening nor the end of its transaction. So a
call that never comes back costs one attempt where it is part of the work, and the whole issue where
it opens or ends a transaction.

* **`Series.issue_returns_iff`**: an issue comes back exactly if it loses no call that opens or ends
  a transaction, and then in time.
-/

namespace Docket

variable {α β : Type} {r : RetrySettings} {w : World} {n k : Nat}

/-! ## Time -/

namespace Plan

/-- A plan takes so many nanoseconds at most, as long as its calls come back at once. -/
def Lasts : Plan α → Nat → Prop
  | .done _, _ => True
  | .poll next, n => ∀ b, (next b).Lasts n
  | .now next, n => ∀ time, (next time).Lasts n
  | .start next, n => ∀ r, (next r).Lasts n
  | .attempt _ limit _ next, n => limit.nanos ≤ n ∧ ∀ r, (next r).Lasts (n - limit.nanos)
  | .finish _ _ next, n => ∀ r, (next r).Lasts n
  | .pause span next, n => span.nanos ≤ n ∧ next.Lasts (n - span.nanos)
  | .query _ next, n => ∀ r, (next r).Lasts n

theorem Lasts.mono {p : Plan α} (h : p.Lasts n) (le : n ≤ k) : p.Lasts k := by
  induction p generalizing n k with
  | done a => trivial
  | poll next ih | now next ih | start next ih | finish _ _ next ih | query _ next ih =>
    exact fun r => ih r (h r) le
  | attempt t limit work next ih =>
    exact ⟨h.1.trans le, fun r => ih r (h.2 r) (Nat.sub_le_sub_right le _)⟩
  | pause span next ih => exact ⟨h.1.trans le, ih h.2 (Nat.sub_le_sub_right le _)⟩

theorem Lasts.bind {p : Plan α} {f : α → Plan β} (h : p.Lasts n) (hf : ∀ a, (f a).Lasts k) :
    (p.bind f).Lasts (n + k) := by
  induction p generalizing n with
  | done a => exact (hf a).mono (Nat.le_add_left k n)
  | poll next ih | now next ih | start next ih | finish _ _ next ih | query _ next ih =>
    exact fun r => ih r (h r)
  | attempt t limit work next ih =>
    refine ⟨Nat.le_add_right_of_le h.1, fun r => ?_⟩
    rw [Nat.sub_add_comm h.1]
    exact ih r (h.2 r)
  | pause span next ih =>
    refine ⟨Nat.le_add_right_of_le h.1, ?_⟩
    rw [Nat.sub_add_comm h.1]
    exact ih h.2

/-- **A run** takes no longer than its plan may take. -/
theorem run_elapsed {p : Plan α} (h : p.Lasts n) (w : World) :
    (p.run w).2.elapsed ≤ w.elapsed + n := by
  induction p generalizing n w with
  | done a => exact Nat.le_add_right w.elapsed n
  | poll next ih => exact ih _ (h _) w
  | now next ih => exact ih _ (h _) w
  | start next ih =>
    have first := w.elapsed_start
    rw [run]
    generalize w.start = dealt at first
    obtain ⟨reply, v⟩ := dealt
    cases reply with
    | answer r => exact first ▸ ih r (h r) v
    | waits | never => exact first ▸ Nat.le_add_right v.elapsed n
  | finish t how next ih =>
    have first := w.elapsed_finish t how
    rw [run]
    generalize w.finish t how = dealt at first
    obtain ⟨reply, v⟩ := dealt
    cases reply with
    | answer r => exact first ▸ ih r (h r) v
    | waits | never => exact first ▸ Nat.le_add_right v.elapsed n
  | query q next ih =>
    have first := w.elapsed_query q
    rw [run]
    generalize w.query q = dealt at first
    obtain ⟨reply, v⟩ := dealt
    cases reply with
    | answer r => exact first ▸ ih r (h r) v
    | waits | never => exact first ▸ Nat.le_add_right v.elapsed n
  | attempt t limit work next ih =>
    have first := work.run_elapsed t w
    rw [run]
    generalize work.run t w = done at first
    obtain ⟨result, v⟩ := done
    cases result with
    | finished r => exact first ▸ ih r ((h.2 r).mono (Nat.sub_le n limit.nanos)) v
    | stuck =>
      have le := h.1
      dsimp only at first ⊢
      split
      · exact first ▸ Nat.le_add_right v.elapsed n
      · refine (ih _ (h.2 _) _).trans ?_
        dsimp only
        omega
  | pause span next ih =>
    rw [run]
    split
    · exact (ih h.2 _).trans (Nat.add_le_add_left (Nat.sub_le n span.nanos) w.elapsed)
    · split
      · exact Nat.le_add_right w.elapsed n
      · have le := h.1
        refine (ih h.2 _).trans ?_
        dsimp only
        omega

end Plan

/-- The time of all attempts and of the pauses between them. -/
def RetrySettings.patience (r : RetrySettings) : Nat :=
  r.maxAttempts * r.attemptTimeout.nanos + ∑ a ∈ Finset.Ico 1 r.maxAttempts, (r.backoff a).nanos

theorem lasts_retrying {attempt : Plan Attempt} (h : attempt.Lasts r.attemptTimeout.nanos)
    {left : Nat} (le : left ≤ r.maxAttempts) (last : Option LedgerError) :
    (retrying r attempt left last).Lasts (left * r.attemptTimeout.nanos +
      ∑ a ∈ Finset.Ico (r.maxAttempts - left + 1) r.maxAttempts, (r.backoff a).nanos) := by
  induction left generalizing last with
  | zero => trivial
  | succ left ih =>
    intro stop
    cases stop with
    | true => trivial
    | false =>
      have next := fun last => ih (Nat.le_of_succ_le le) last
      have number : r.maxAttempts - (left + 1) + 1 = r.maxAttempts - left := by omega
      -- The attempt takes its time first; then there may be a pause, and there are the others.
      rw [Nat.succ_mul, Nat.add_comm (left * _), Nat.add_assoc, number]
      refine h.bind fun x => ?_
      have few : Finset.Ico (r.maxAttempts - left + 1) r.maxAttempts ⊆
          Finset.Ico (r.maxAttempts - left) r.maxAttempts :=
        Finset.Ico_subset_Ico_left (Nat.le_succ _)
      have more := Nat.add_le_add_left (Finset.sum_le_sum_of_subset few (f := fun a =>
        (r.backoff a).nanos)) (left * r.attemptTimeout.nanos)
      cases x with
      | issued | fatal => trivial
      | collided => exact (next last).mono more
      | transient e =>
        dsimp only
        split
        · exact (next _).mono more
        · have lt : r.maxAttempts - left < r.maxAttempts := by omega
          rw [Finset.sum_eq_sum_Ico_succ_bot lt, Nat.add_left_comm]
          refine ⟨Nat.le_add_right _ _, ?_⟩
          rw [Nat.add_sub_cancel_left]
          exact next _

/-! ## Calls that are lost -/

/-- Work that loses a call is worked on until its time is up. -/
theorem Plan.run_attempt_of_lost (t : Tx) (limit : Span) (work : Work Candidate)
    {next : Except Error Candidate → Plan α} (outside : ∀ r, (next r).Makes Call.Outside)
    (patient : w.horizon = none) :
    ∃ calls, w.Follows ((Plan.attempt t limit work next).run w).2 calls ∧
      (Lost w.faults (¬ Call.Outside ·) calls → ∃ v,
        (Plan.attempt t limit work next).run w =
          (next (.error (.ledger (.timeout limit)))).run v) := by
  obtain ⟨calls, follows, -, stuck⟩ := Work.run_follows (K := (¬ Call.Outside ·))
    (work.makes_of_touch (P := fun _ => True) fun _ => trivial) t w
  rw [Plan.run]
  generalize work.run t w = done at follows stuck
  obtain ⟨result, v⟩ := done
  cases result with
  | finished r =>
    obtain ⟨later, follows', made, -⟩ := Plan.run_follows (outside r) v
    refine ⟨later ++ calls, follows.trans follows', fun lost => ?_⟩
    rcases (follows.lost_append later).mp lost with early | late
    · cases stuck early
    · exact absurd late (not_lost fun c hc => not_not_intro (made c hc))
  | stuck =>
    have early : v.beyond (v.elapsed + limit.nanos) = false := by
      rw [World.beyond, follows.horizon, patient]
      rfl
    simp only [early]
    obtain ⟨later, follows', -⟩ := Plan.run_follows (outside (.error (.ledger (.timeout limit))))
      { v with elapsed := v.elapsed + limit.nanos }
    have follows : w.Follows { v with elapsed := v.elapsed + limit.nanos } calls :=
      ⟨follows.log, follows.script, follows.stopAfter, follows.horizon⟩
    exact ⟨later ++ calls, follows.trans follows', fun _ => ⟨_, rfl⟩⟩

namespace Series

variable (s : Series) (r : RetrySettings) {t : Tx}

theorem lasts_attemptIn : (s.attemptIn r t).Lasts r.attemptTimeout.nanos :=
  ⟨Nat.le_refl _, fun _ => trivial⟩

theorem lasts_attemptAlone : (s.attemptAlone r).Lasts r.attemptTimeout.nanos := by
  rintro (e | t)
  · trivial
  · refine ⟨Nat.le_refl _, ?_⟩
    rintro (e | ⟨id | id⟩)
    · exact fun _ => trivial
    · rintro (e | _) <;> trivial
    · exact fun _ => trivial

theorem lasts_issueOne : (s.issueOne r).Lasts r.patience := by
  have all := lasts_retrying (s.lasts_attemptAlone r) (Nat.le_refl _) none
  rwa [Nat.sub_self, Nat.zero_add] at all

theorem lasts_issueIn : (s.issueIn r t).Lasts r.patience := by
  have all := lasts_retrying (s.lasts_attemptIn r (t := t)) (Nat.le_refl _) none
  rwa [Nat.sub_self, Nat.zero_add] at all

theorem lasts_issueRest (left : Nat) (ids : List String) :
    (s.issueRest r t left ids).Lasts (left * r.patience) := by
  induction left generalizing ids with
  | zero => rintro (e | _) <;> trivial
  | succ left ih =>
    rw [Nat.succ_mul, Nat.add_comm (left * _)]
    refine (s.lasts_issueIn r).bind ?_
    rintro (e | id)
    · exact fun _ => trivial
    · exact ih _

theorem lasts_issueBatch (n : Nat) : (s.issueBatch r n).Lasts (n * r.patience) := by
  unfold issueBatch
  split
  · trivial
  · rintro (_ | _)
    · rintro (e | t)
      · trivial
      · exact s.lasts_issueRest r n []
    · trivial

theorem attemptIn_of_lost (t : Tx) (patient : w.horizon = none) :
    ∃ calls, w.Follows ((s.attemptIn r t).run w).2 calls ∧
      (Lost w.faults (¬ Call.Outside ·) calls →
        ((s.attemptIn r t).run w).1 = .finished (.transient (.timeout r.attemptTimeout))) := by
  have outside result : (Plan.done (Attempt.ofResult result)).Makes Call.Outside := trivial
  obtain ⟨calls, follows, lost⟩ :=
    Plan.run_attempt_of_lost t r.attemptTimeout s.candidate outside patient
  refine ⟨calls, follows, fun h => ?_⟩
  obtain ⟨v, run⟩ := lost h
  exact congrArg Prod.fst run

/-- An attempt in its own transaction that loses a call of its work has run out of time, unless it
never comes back. -/
theorem attemptAlone_of_lost (patient : w.horizon = none) :
    ∃ calls, w.Follows ((s.attemptAlone r).run w).2 calls ∧
      (Lost w.faults (¬ Call.Outside ·) calls →
        ((s.attemptAlone r).run w).1 = .hung ∨
        ((s.attemptAlone r).run w).1 = .finished (.transient (.timeout r.attemptTimeout))) := by
  have first := w.follows_start
  have none : ¬ Lost w.faults (¬ Call.Outside ·) [.start] :=
    not_lost (List.forall_mem_singleton.mpr (not_not_intro trivial))
  rw [attemptAlone_eq, Plan.run]
  generalize w.start = dealt at first
  obtain ⟨reply, v⟩ := dealt
  cases reply with
  | waits | never => exact ⟨_, first, fun lost => absurd lost none⟩
  | answer opened =>
    cases opened with
    | error e => exact ⟨_, first, fun lost => absurd lost none⟩
    | ok t =>
      have outside := makes_close t (P := Call.Outside) fun _ => trivial
      obtain ⟨calls, follows, lost⟩ := Plan.run_attempt_of_lost t r.attemptTimeout s.candidate
        outside (first.horizon.trans patient)
      refine ⟨calls ++ [.start], first.trans follows, fun h => ?_⟩
      rcases (first.lost_append calls).mp h with early | late
      · exact absurd early none
      · obtain ⟨u, run⟩ := lost late
        have ending : Attempt.close t (.error (.ledger (.timeout r.attemptTimeout))) =
          .finish t .abort fun _ => .done (.transient (.timeout r.attemptTimeout)) := rfl
        dsimp only
        rw [run, ending, Plan.run]
        split
        · exact .inr rfl
        · exact .inl rfl

/-- **An issue comes back exactly if it loses no call that opens or ends a transaction**, and then
within the time of its attempts and the pauses between them. A call of the work that is lost costs
the attempt, which fails as one whose time is up. -/
theorem issue_returns_iff (patient : w.horizon = none) :
    (∀ t result w', (s.attemptIn r t).run w = (result, w') →
      ∃ calls, w.Follows w' calls ∧ (Lost w.faults (¬ Call.Outside ·) calls →
        result = .finished (.transient (.timeout r.attemptTimeout)))) ∧
    (∀ result w', (s.attemptAlone r).run w = (result, w') →
      ∃ calls, w.Follows w' calls ∧ (Lost w.faults (¬ Call.Outside ·) calls →
        result = .hung ∨ result = .finished (.transient (.timeout r.attemptTimeout)))) ∧
    (∀ result w', (s.issueOne r).run w = (result, w') →
      ∃ calls, w.Follows w' calls ∧ (result = .hung ↔ Lost w.faults Call.Deals calls) ∧
        w'.elapsed ≤ w.elapsed + r.patience) ∧
    ∀ n result w', (s.issueBatch r n).run w = (result, w') →
      ∃ calls, w.Follows w' calls ∧ (result = .hung ↔ Lost w.faults Call.Deals calls) ∧
        w'.elapsed ≤ w.elapsed + n * r.patience := by
  refine ⟨?_, ?_, ?_, ?_⟩
  · rintro t result w' run
    have lost := s.attemptIn_of_lost r t patient
    rwa [run] at lost
  · rintro result w' run
    have lost := s.attemptAlone_of_lost r patient
    rwa [run] at lost
  · rintro result w' run
    have traces := Plan.run_follows (s.makes_issueOne r) w
    have time := Plan.run_elapsed (s.lasts_issueOne r) w
    rw [run] at traces time
    obtain ⟨calls, follows, hung⟩ := traces.hung_iff patient
    exact ⟨calls, follows, hung, time⟩
  · rintro n result w' run
    have traces := Plan.run_follows (s.makes_issueBatch r n) w
    have time := Plan.run_elapsed (s.lasts_issueBatch r n) w
    rw [run] at traces time
    obtain ⟨calls, follows, hung⟩ := traces.hung_iff patient
    exact ⟨calls, follows, hung, time⟩

end Series

/-- A world that calls every identifier taken at first, and where a call of one kind never comes
back. -/
def World.deaf (m : Method) : World where
  ledger := {}
  faults m' := if m' = m then [.stall] else if m' = .recorded then [.say true] else []
  clock := fun _ => ⟨1741942800, 0, 0⟩

/-- Additions that are lost cost an attempt. -/
theorem Series.issue_returns_iff_deaf :
    ∃ w' calls, ((Series.roll {}).issueOne {}).run (.deaf .increment) =
        (.finished (.ok "250314-0-02"), w') ∧
      (World.deaf .increment).Follows w' calls ∧
      ¬ Lost (World.deaf .increment).faults Call.Deals calls ∧
      w'.elapsed ≤ (RetrySettings.mk 3 100 5000).patience := by
  have run : (((Series.roll {}).issueOne {}).run (.deaf .increment)).1 =
      .finished (.ok "250314-0-02") := by cbv
  obtain ⟨calls, follows, hung, time⟩ :=
    (Series.issue_returns_iff (w := .deaf .increment) (.roll {}) {} rfl).2.2.1 _ _
      (Prod.ext run rfl)
  refine ⟨_, calls, Prod.ext run rfl, follows, fun lost => ?_,
    time.trans (Nat.le_of_eq (Nat.zero_add _))⟩
  cases hung.mpr lost

/-- **An issue need not come back**: it never does if the call that opens, commits or aborts a
transaction is lost. -/
theorem Series.issueOne_hangs :
    (((Series.roll {}).issueOne {}).run (.deaf .start)).1 = .hung ∧
    (((Series.roll {}).issueOne {}).run (.deaf .abort)).1 = .hung ∧
    (((Series.roll {}).issueOne {}).run (.deaf .commit)).1 = .hung ∧
    (((Series.roll {}).issueBatch {} 1).run (.deaf .start)).1 = .hung ∧
    (((Series.roll {}).issueBatch {} 1).run (.deaf .commit)).1 = .hung := by
  refine ⟨?_, ?_, ?_, ?_, ?_⟩ <;> cbv

end Docket
