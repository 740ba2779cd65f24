import Docket.Proofs.Issue.Batch
import Docket.Proofs.Issue.Pick
import Docket.Proofs.Issue.Skips

/-!
# Identifiers issued together

A batch keeps one transaction open over all its attempts, and single issues open one for each. Both
pick their identifiers on the slate, and there it makes no difference.

* **`Series.issueBatch_eq_each`**: a batch is as many single issues.
-/

namespace Docket.Series

variable {s : Series} {r : RetrySettings} {w : World} {now : Time} {t : Tx} {n : Nat}

/-! ## Together -/

theorem settles_attemptIn_unawaited :
    s.Settles now (s.attemptIn r t) 0 0 fun w =>
      w.Ready now t (s.key now) ∧ w.ledger.locks.Unawaited (s.key now) :=
  .of_run (fun _ h => h.1.toCalm) fun w ⟨ready, free⟩ => by
    obtain ⟨w', run, ready', slate, spent, un⟩ := attemptIn_run (r := r) ready
    refine ⟨w', run, ⟨ready', un free⟩, slate, ?_⟩
    split <;> exact spent

theorem issueRest_run (ready : w.Ready now t (s.key now))
    (un : w.ledger.locks.Unawaited (s.key now)) (n : Nat) (acc : List String) :
    ∃ w', (s.issueRest r t n acc).run w =
        (.finished ((s.pickMany r now n w.slate).1.map (acc.reverse ++ ·)), w') ∧
      w'.Quiet now (s.key now) ∧ w'.slate = (s.pickMany r now n w.slate).2 ∧
      w.Spent w' (if (s.pickMany r now n w.slate).1.isOk then 1 else 0)
        (if (s.pickMany r now n w.slate).1.isOk then 0 else 1) := by
  induction n generalizing w acc with
  | zero =>
    obtain ⟨w', finish, calm, spent, slate, free⟩ := ready.finish .commit
    refine ⟨w', ?_, ⟨calm, free un⟩, slate, spent⟩
    simp only [issueRest, Plan.run, finish, pickMany, Except.map, List.append_nil]
  | succ n ih =>
    obtain ⟨w₁, k, run, ⟨ready₁, un₁⟩, slate₁, spent₁⟩ :=
      settles_attemptIn_unawaited.retrying_run (r := r) ⟨ready, un⟩ r.maxAttempts
    rw [ite_self, Nat.zero_mul] at spent₁
    rw [issueRest, Plan.run_bind, issueIn, run]
    cases picked : s.pick r now r.maxAttempts w.slate with | mk result τ
    rw [picked] at slate₁
    cases result with
    | error e =>
      rw [pickMany_of_error picked]
      obtain ⟨w', finish, calm, spent, slate, free⟩ := ready₁.finish .abort
      refine ⟨w', ?_, ⟨calm, free un₁⟩, slate.trans slate₁, spent₁.trans spent⟩
      simp only [Plan.run, finish]
      rfl
    | ok id =>
      rw [pickMany_of_ok picked]
      obtain ⟨w', run', quiet, slate', spent'⟩ := ih ready₁ un₁ (id :: acc)
      rw [show w₁.slate = τ from slate₁] at run' slate' spent'
      have spent := spent₁.trans spent'
      rw [Nat.zero_add, Nat.zero_add] at spent
      generalize s.pickMany r now n τ = rest at run' slate' spent
      obtain ⟨e | ids, υ⟩ := rest
      · exact ⟨w', run', quiet, slate', spent⟩
      · refine ⟨w', run'.trans ?_, quiet, slate', spent⟩
        simp only [Except.map, List.reverse_cons, List.append_assoc, List.singleton_append]

/-- **A batch** picks its identifiers on the slate. It commits if all are found, and else aborts. -/
theorem issueBatch_run (quiet : w.Quiet now (s.key now)) (pos : n ≠ 0) :
    ∃ w', (s.issueBatch r n).run w = (.finished (s.pickMany r now n w.slate).1, w') ∧
      w'.Quiet now (s.key now) ∧ w'.slate = (s.pickMany r now n w.slate).2 ∧
      w.Spent w' (if (s.pickMany r now n w.slate).1.isOk then 1 else 0)
        (if (s.pickMany r now n w.slate).1.isOk then 0 else 1) := by
  obtain ⟨w₀, start, ready, spent, slate, un⟩ := quiet.start
  obtain ⟨w', run, quiet', slate', spent'⟩ := issueRest_run (r := r) ready un n []
  rw [slate] at run slate' spent'
  have spent := spent.trans spent'
  rw [Nat.zero_add, Nat.zero_add] at spent
  refine ⟨w', ?_, quiet', slate', spent⟩
  simp only [issueBatch, if_neg pos, Plan.run, quiet.toCalm.isCancelled]
  rw [if_neg Bool.false_ne_true]
  simp only [Plan.run, start, run]
  cases (s.pickMany r now n w.slate).1 <;> rfl

/-- **A batch gives what is free** of drafts made one after another, if it asks for as many and its
patience lasts. -/
theorem issueBatch_of_drafts (quiet : w.Quiet now (s.key now)) {ds : List String} {τ : Slate}
    (drafts : s.Drafts now ds w.slate τ)
    (patient : Patient r.maxAttempts (w.ledger.IsRecorded s.field) ds) :
    let free := ds.filter (¬ w.ledger.IsRecorded s.field ·)
    ∃ w', (s.issueBatch r free.length).run w = (.finished (.ok free), w') := by
  intro free
  have picked := pickMany_of_drafts (l := w.ledger) rfl drafts patient
  by_cases none : free.length = 0
  · rw [none, List.length_eq_zero_iff.mp none]
    exact ⟨w, rfl⟩
  · obtain ⟨w', run, -⟩ := issueBatch_run (r := r) quiet none
    rw [picked] at run
    exact ⟨w', run⟩

/-! ## One after another -/

/-- Issues identifiers one after another, each by itself, up to the first failure. -/
def issueEach (s : Series) (r : RetrySettings) : Nat → Plan (Except Error (List String))
  | 0 => .done (.ok [])
  | n + 1 => (s.issueOne r).bind fun
    | .error e => .done (.error e)
    | .ok id => (s.issueEach r n).bind fun rest => .done (rest.map (id :: ·))

/-- **Single issues** pick their identifiers on the slate, and commit once for each. -/
theorem issueEach_run (quiet : w.Quiet now (s.key now)) (n : Nat) :
    ∃ w' m k, (s.issueEach r n).run w = (.finished (s.pickMany r now n w.slate).1, w') ∧
      w'.Quiet now (s.key now) ∧ w'.slate = (s.pickMany r now n w.slate).2 ∧ w.Spent w' m k ∧
      match (s.pickMany r now n w.slate).1 with
      | .ok ids => ids.length = n ∧ m = n
      | .error _ => m < n := by
  induction n generalizing w with
  | zero => exact ⟨w, 0, 0, rfl, quiet, rfl, .refl w, rfl, rfl⟩
  | succ n ih =>
    obtain ⟨w₁, k, run, quiet₁, slate₁, spent₁⟩ :=
      settles_attemptAlone.retrying_run (r := r) quiet r.maxAttempts
    rw [issueEach, Plan.run_bind, issueOne, run]
    cases picked : s.pick r now r.maxAttempts w.slate with | mk result τ
    rw [picked] at slate₁ spent₁
    cases result with
    | error e =>
      rw [pickMany_of_error picked]
      exact ⟨w₁, 0, 1 * k, rfl, quiet₁, slate₁, spent₁, Nat.succ_pos n⟩
    | ok id =>
      rw [pickMany_of_ok picked]
      obtain ⟨w', m, k', run', quiet', slate', spent', count⟩ := ih quiet₁
      rw [show w₁.slate = τ from slate₁] at run' slate' count
      have rest : ((s.issueEach r n).bind fun rest => .done (rest.map (id :: ·))).run w₁ =
          (.finished ((s.pickMany r now n τ).1.map (id :: ·)), w') := by
        rw [Plan.run_bind, run']
        rfl
      refine ⟨w', 1 + m, 1 * k + k', rest, quiet', slate', spent₁.trans spent', ?_⟩
      generalize (s.pickMany r now n τ).1 = result at count
      cases result with
      | error e => exact show 1 + m < n + 1 by have : m < n := count; omega
      | ok ids => exact ⟨congrArg (· + 1) count.1, by rw [count.2, Nat.add_comm]⟩

/-- **A batch is as many single issues**, one after another up to the first that fails: the same
identifiers or the same error, and the same counters, records and random draws. Only commits and
aborts differ. -/
theorem issueBatch_eq_each (quiet : w.Quiet now (s.key now)) (pos : 1 ≤ n) :
    ∃ result v u, (s.issueBatch r n).run w = (.finished result, v) ∧
      (s.issueEach r n).run w = (.finished result, u) ∧ v.slate = u.slate ∧
      v.Quiet now (s.key now) ∧ u.Quiet now (s.key now) ∧
      match result with
      | .ok ids => ids.length = n ∧ w.Spent v 1 0 ∧ ∃ aborts, w.Spent u n aborts
      | .error _ => w.Spent v 0 1 ∧ ∃ commits < n, ∃ aborts, w.Spent u commits aborts := by
  obtain ⟨v, run, quiet₁, slate, spent⟩ := issueBatch_run (r := r) quiet (Nat.ne_of_gt pos)
  obtain ⟨u, m, k, run', quiet₂, slate', spent', count⟩ := issueEach_run (r := r) quiet n
  refine ⟨_, v, u, run, run', slate.trans slate'.symm, quiet₁, quiet₂, ?_⟩
  generalize (s.pickMany r now n w.slate).1 = result at count spent
  cases result with
  | error e => exact ⟨spent, m, count, k, spent'⟩
  | ok ids => exact ⟨count.1, spent, k, count.2 ▸ spent'⟩

/-- Two roll numbers, the first of the day being on record. -/
theorem issueBatch_eq_each_sample :
    let ids := ["250314-0-02", "250314-0-03"]
    ∃ v u k, ((Series.roll {}).issueBatch {} 2).run .sample = (.finished (.ok ids), v) ∧
      ((Series.roll {}).issueEach {} 2).run .sample = (.finished (.ok ids), u) ∧
      v.slate = u.slate ∧ World.sample.Spent v 1 0 ∧ World.sample.Spent u 2 k := by
  intro ids
  have quiet : World.sample.Quiet ⟨1741942800, 0, 0⟩ ((Series.roll {}).key ⟨1741942800, 0, 0⟩) :=
    ⟨⟨fun _ => rfl, fun _ => rfl, rfl⟩, fun l hl => by cases hl⟩
  obtain ⟨result, v, u, run, run', slate, -, -, spent⟩ :=
    issueBatch_eq_each (r := {}) quiet (n := 2) (by decide)
  have issued : (((Series.roll {}).issueBatch {} 2).run .sample).1 = .finished (.ok ids) := by cbv
  rw [run] at issued
  cases issued
  obtain ⟨-, once, k, twice⟩ := spent
  exact ⟨v, u, k, run, run', slate, once, twice⟩

end Docket.Series
