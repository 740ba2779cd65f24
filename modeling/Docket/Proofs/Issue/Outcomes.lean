import Docket.Proofs.Issue.Shape
import Docket.Run.Alone

/-!
# What an issue may give

What work and plans may give is read off them, whatever they are answered. So it holds alone and
among others, and of any ledger.

* `Series.MayIssue`, **`Series.MayIssue.written`**: whatever a series issues, alone, in a given
  transaction or in a batch, is written of an allocation under its key at the time.
-/

namespace Docket

variable {α β : Type} {s : Series} {r : RetrySettings} {w w' : World} {t : Tx} {n : Nat}
  {a : α} {b : β} {id : String} {ids : List String}

/-! ## Work in a transaction -/

namespace Work

/-- A value that work gives if it is answered so. -/
def MayGive : Work α → α → Prop
  | .done a, b => b = a
  | .fail _, _ => False
  | .now next, b => ∃ time, (next time).MayGive b
  | .draw _ next, b => ∃ words, (next words).MayGive b
  | .note _ next, b => next.MayGive b
  | .touch _ next, b => ∃ answer, (next answer).MayGive b

@[simp]
theorem mayGive_done_iff {a' : α} : (done a).MayGive a' ↔ a' = a := Iff.rfl

theorem mayGive_bind_iff {work : Work α} {f : α → Work β} :
    (work.bind f).MayGive b ↔ ∃ a, work.MayGive a ∧ (f a).MayGive b := by
  induction work with
  | done | fail => simp [bind, MayGive]
  | note _ next ih => exact ih
  | now next ih | draw _ next ih | touch _ next ih =>
    simp only [bind, MayGive, ih]
    constructor
    · rintro ⟨answer, a, first, rest⟩
      exact ⟨a, ⟨answer, first⟩, rest⟩
    · rintro ⟨a, ⟨answer, first⟩, rest⟩
      exact ⟨answer, a, first, rest⟩

theorem mayGive_lift_iff {x : Except Error α} : (lift x).MayGive a ↔ x = .ok a := by
  cases x <;> simp [lift, MayGive, eq_comm]

theorem mayGive_of_run {work : Work α} (h : work.run t w = (.finished (.ok a), w')) :
    work.MayGive a := by
  induction work generalizing w with
  | done =>
    cases h
    rfl
  | fail => cases h
  | now next ih => exact ⟨_, ih _ h⟩
  | draw _ next ih => exact ⟨_, ih _ h⟩
  | note _ next ih => exact ih h
  | touch c next ih =>
    rw [run] at h
    split at h
    · exact ⟨_, ih _ h⟩
    all_goals cases h

end Work

/-! ## Plans -/

namespace Plan

/-- A value that a plan gives if it is answered so. Work in it may fail at any time. -/
def MayGive : Plan α → α → Prop
  | .done a, b => b = a
  | .poll next, b => ∃ stop, (next stop).MayGive b
  | .now next, b => ∃ time, (next time).MayGive b
  | .start next, b => ∃ answer, (next answer).MayGive b
  | .attempt _ _ work next, b =>
    (∃ e, (next (.error e)).MayGive b) ∨ ∃ c, work.MayGive c ∧ (next (.ok c)).MayGive b
  | .finish _ _ next, b => ∃ answer, (next answer).MayGive b
  | .pause _ next, b => next.MayGive b
  | .query _ next, b => ∃ answer, (next answer).MayGive b

@[simp]
theorem mayGive_done_iff {a' : α} : (done a).MayGive a' ↔ a' = a := Iff.rfl

theorem exists_of_bind {p : Plan α} {f : α → Plan β} (h : (p.bind f).MayGive b) :
    ∃ a, p.MayGive a ∧ (f a).MayGive b := by
  induction p with
  | done a => exact ⟨a, rfl, h⟩
  | poll next ih | now next ih | start next ih | finish _ _ next ih | query _ next ih =>
    obtain ⟨answer, h⟩ := h
    obtain ⟨a, first, rest⟩ := ih answer h
    exact ⟨a, ⟨answer, first⟩, rest⟩
  | attempt _ _ work next ih =>
    obtain ⟨e, h⟩ | ⟨c, given, h⟩ := h
    · obtain ⟨a, first, rest⟩ := ih _ h
      exact ⟨a, .inl ⟨e, first⟩, rest⟩
    · obtain ⟨a, first, rest⟩ := ih _ h
      exact ⟨a, .inr ⟨c, given, first⟩, rest⟩
  | pause _ next ih => exact ih h

/-- **A run** gives what the plan may give. -/
theorem mayGive_of_run {p : Plan α} (h : p.run w = (.finished a, w')) : p.MayGive a := by
  induction p generalizing w with
  | done =>
    cases h
    rfl
  | poll next ih => exact ⟨_, ih _ h⟩
  | now next ih => exact ⟨_, ih _ h⟩
  | start next ih | finish _ _ next ih | query _ next ih =>
    rw [run] at h
    split at h
    · exact ⟨_, ih _ h⟩
    · cases h
  | attempt t limit work next ih =>
    rw [run] at h
    split at h
    · next result v given =>
      cases result with
      | ok c => exact .inr ⟨c, Work.mayGive_of_run given, ih _ h⟩
      | error e => exact .inl ⟨e, ih _ h⟩
    · split at h
      · cases h
      · exact .inl ⟨_, ih _ h⟩
  | pause span next ih =>
    rw [run] at h
    split at h
    · exact ih h
    · split at h
      · cases h
      · exact ih h

end Plan

/-! ## Attempts -/

theorem Attempt.clear_of_close {result : Except Error Candidate}
    (h : (close t result).MayGive (.issued id)) : result = .ok (.clear id) := by
  unfold close at h
  split at h
  · obtain ⟨e | ⟨⟩, h⟩ := h
    · exact absurd h.symm (ofError_ne_issued _ _)
    · rw [issued.inj h]
  · obtain ⟨answer, h⟩ := h
    exact eq_clear_of_issued h.symm

namespace Series

theorem key_of_advance {key : String} {now : Time} {c : Counter} {rotated : Bool} {a : Allocation}
    (h : (s.advance key now c rotated).MayGive a) : a.key = key := by
  unfold advance at h
  split at h
  · split at h
    · split at h
      · cases h
      · obtain ⟨c', -, given⟩ := Work.mayGive_bind_iff.mp h
        rw [Work.mayGive_done_iff.mp given]
    · rw [Work.mayGive_done_iff.mp h]
  · rw [Work.mayGive_done_iff.mp h]

theorem key_of_allocate {now : Time} {a : Allocation} (h : (s.allocate now).MayGive a) :
    a.key = s.key now := by
  rw [allocate_eq] at h
  obtain ⟨words, h⟩ := h
  obtain ⟨rotated, -, c, settled⟩ := Work.mayGive_bind_iff.mp h
  obtain ⟨a', advanced, complete⟩ := Work.mayGive_bind_iff.mp settled
  rw [Work.mayGive_done_iff.mp complete]
  exact key_of_advance advanced

def Written (s : Series) (id : String) : Prop :=
  ∃ now a words, a.key = s.key now ∧ s.format a words = .ok id

theorem written_of_candidate (h : s.candidate.MayGive (.clear id)) : s.Written id := by
  rw [candidate_eq] at h
  obtain ⟨now, h⟩ := h
  obtain ⟨a, allocated, h⟩ := Work.mayGive_bind_iff.mp h
  obtain ⟨id', ⟨words, format⟩, taken, looked⟩ := Work.mayGive_bind_iff.mp h
  have looked := Work.mayGive_done_iff.mp looked
  have same : id = id' := by
    split at looked
    · cases looked
    · exact Candidate.clear.inj looked
  subst same
  exact ⟨now, a, words, key_of_allocate allocated, Work.mayGive_lift_iff.mp format⟩

theorem written_of_attemptIn (h : (s.attemptIn r t).MayGive (.issued id)) : s.Written id := by
  obtain ⟨e, h⟩ | ⟨c, given, h⟩ := h
  · cases Attempt.eq_clear_of_issued h.symm
  · cases Attempt.eq_clear_of_issued h.symm
    exact written_of_candidate given

theorem written_of_attemptAlone (h : (s.attemptAlone r).MayGive (.issued id)) : s.Written id := by
  rw [attemptAlone_eq] at h
  obtain ⟨e | t, h⟩ := h
  · exact absurd h.symm (Attempt.ofError_ne_issued _ _)
  · obtain ⟨e, h⟩ | ⟨c, given, h⟩ := h
    · cases Attempt.clear_of_close h
    · cases Attempt.clear_of_close h
      exact written_of_candidate given

end Series

/-! ## Issues -/

theorem issued_of_retrying {attempt : Plan Attempt} {left : Nat} {last : Option LedgerError}
    (h : (retrying r attempt left last).MayGive (.ok id)) : attempt.MayGive (.issued id) := by
  induction left generalizing last with
  | zero => cases Plan.mayGive_done_iff.mp h
  | succ left ih =>
    obtain ⟨_ | _, h⟩ := h
    · obtain ⟨way, attempted, h⟩ := Plan.exists_of_bind h
      cases way with
      | issued id' =>
        cases Plan.mayGive_done_iff.mp h
        exact attempted
      | collided => exact ih h
      | transient e =>
        change (ite (left = 0) _ _ : Plan _).MayGive _ at h
        split at h
        · exact ih h
        · exact ih h
      | fatal e => cases Plan.mayGive_done_iff.mp h
    · cases Plan.mayGive_done_iff.mp h

namespace Series

theorem written_of_issueIn (h : (s.issueIn r t).MayGive (.ok id)) : s.Written id :=
  written_of_attemptIn (issued_of_retrying h)

theorem written_of_issueRest {left : Nat} (before : ∀ id ∈ ids, s.Written id)
    {all : List String} (h : (s.issueRest r t left ids).MayGive (.ok all)) :
    ∀ id ∈ all, s.Written id := by
  induction left generalizing ids with
  | zero =>
    obtain ⟨e | ⟨⟩, h⟩ := h
    · cases Plan.mayGive_done_iff.mp h
    · cases Plan.mayGive_done_iff.mp h
      simpa using before
  | succ left ih =>
    obtain ⟨e | id, issued, h⟩ := Plan.exists_of_bind h
    · obtain ⟨answer, h⟩ := h
      cases Plan.mayGive_done_iff.mp h
    · exact ih (List.forall_mem_cons.mpr ⟨written_of_issueIn issued, before⟩) h

/-- An identifier that a series issues, alone, in a given transaction or in a batch, if it is
answered so. -/
inductive MayIssue (s : Series) (id : String) : Prop
  | alone {r : RetrySettings} (h : (s.issueOne r).MayGive (.ok id))
  | within {r : RetrySettings} {t : Tx} (h : (s.issueIn r t).MayGive (.ok id))
  | together {r : RetrySettings} {n : Nat} {ids : List String}
      (h : (s.issueBatch r n).MayGive (.ok ids)) (mem : id ∈ ids)

/-- **What a series issues** it has written of an allocation under its key at the time. -/
theorem MayIssue.written (h : s.MayIssue id) : s.Written id := by
  cases h with
  | alone h => exact written_of_attemptAlone (issued_of_retrying h)
  | within h => exact written_of_issueIn h
  | together h mem =>
    unfold issueBatch at h
    split at h
    · cases Plan.mayGive_done_iff.mp h
      cases mem
    · obtain ⟨_ | _, h⟩ := h
      · obtain ⟨e | t, h⟩ := h
        · cases Plan.mayGive_done_iff.mp h
        · exact written_of_issueRest (by simp) h id mem
      · cases Plan.mayGive_done_iff.mp h

end Series

end Docket
