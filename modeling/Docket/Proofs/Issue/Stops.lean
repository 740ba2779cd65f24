import Docket.Proofs.Issue.Attempts
import Docket.Proofs.Issue.Transactions

/-!
# Issues that are told to stop

Whoever is told to stop starts no further attempt. The attempt under way still counts: what it
settles is given back, and a batch whose identifiers are all there still commits.

* **`Series.issue_stops`**: what comes of issues, whenever they are told to stop.
-/

namespace Docket

variable {α β : Type} {s : Series} {r : RetrySettings} {w v : World} {t : Tx} {n : Nat}

def Reply.last (f : Except LedgerError α → β) : Reply α → Run β
  | .answer r => .finished (f r)
  | .waits | .never => .hung

theorem Plan.run_finish {next : Except LedgerError Unit → Plan β} {f : Except LedgerError Unit → β}
    (how : Ending) (ends : ∀ r, next r = .done (f r)) :
    (Plan.finish t how next).run w = ((w.finish t how).1.last f, (w.finish t how).2) := by
  rw [Plan.run]
  generalize w.finish t how = dealt
  obtain ⟨reply, v⟩ := dealt
  cases reply with
  | answer r => simp only [ends, Plan.run, Reply.last]
  | waits | never => rfl

/-! ## In one transaction -/

/-- Identifiers issued one after another in a transaction, each with attempts of its own. -/
inductive Gathered (s : Series) (r : RetrySettings) (t : Tx) : World → List String → World → Prop
  | none (w : World) : Gathered s r t w [] w
  | more {w v u : World} {xs : List Attempt} {id : String} {ids : List String}
      (tried : Tried r (s.attemptIn r t) 1 w xs v) (few : xs.length ≤ r.maxAttempts)
      (issued : r.conclusion xs = .ok id) (rest : Gathered s r t v ids u) :
      Gathered s r t w (id :: ids) u

/-- How a batch that has some identifiers, latest first, goes on for `left` more in its transaction.
It commits if it comes by all of them. If not, it aborts with what the attempts for the next one
came to, or because it was told to stop. -/
def Batched (s : Series) (r : RetrySettings) (t : Tx) (acc : List String) (left : Nat) (w : World)
    (result : Run (Except Error (List String))) (w' : World) : Prop :=
  ∃ ids v, Gathered s r t w ids v ∧
    (ids.length = left ∧ w' = (v.finish t .commit).2 ∧
        result = (v.finish t .commit).1.last
          (fun r => (r.mapError .ledger).map fun _ => acc.reverse ++ ids) ∨
      ids.length < left ∧ ∃ xs u e, Tried r (s.attemptIn r t) 1 v xs u ∧
        xs.length ≤ r.maxAttempts ∧ r.conclusion xs = .error e ∧
        ((∀ x ∈ xs, x.settled? = none) → xs.length < r.maxAttempts → u.isCancelled) ∧
        w' = (u.finish t .abort).2 ∧
        result = (u.finish t .abort).1.last (fun _ => .error e))

namespace Series

theorem issueIn_returns (s : Series) (r : RetrySettings) (t : Tx) (patient : w.horizon = none) :
    ∃ x, ((s.issueIn r t).run w).1 = .finished x := by
  have kept := s.issueIn_ensures r (t := t) (World.Steady.dealt w [] [] 0 0) (fun _ => id)
    (fun _ _ dealt late => dealt.not_beyond late) (.refl w)
  exact kept.returns (not_not_intro patient)

theorem issueRest_batched (s : Series) (r : RetrySettings) (t : Tx) (patient : w.horizon = none)
    (left : Nat) (acc : List String) :
    Batched s r t acc left w ((s.issueRest r t left acc).run w).1
      ((s.issueRest r t left acc).run w).2 := by
  induction left generalizing w acc with
  | zero =>
    rw [issueRest, Plan.run_finish (f := fun r => (r.mapError .ledger).map fun _ => acc.reverse)
      .commit (by rintro (e | _) <;> rfl)]
    exact ⟨[], w, .none w, .inl ⟨rfl, rfl, by rw [List.append_nil]⟩⟩
  | succ left ih =>
    obtain ⟨x, returns⟩ := s.issueIn_returns r t patient
    obtain ⟨calls, follows, -⟩ := Plan.run_follows (s.makes_issueIn r t) w
    have attempted := s.issueIn_attempted r t patient
    rw [issueRest, Plan.run_bind]
    generalize (s.issueIn r t).run w = run at returns follows attempted
    obtain ⟨result, v⟩ := run
    subst returns
    obtain ⟨xs, v, tried, few, rfl, conclusion, told⟩ := attempted
    rw [List.nil_append] at few conclusion told
    cases x with
    | error e =>
      dsimp only
      let failed (_ : Except LedgerError Unit) : Except Error (List String) := .error e
      rw [Plan.run_finish (f := failed) .abort fun _ => rfl]
      exact ⟨[], w, .none w, .inr ⟨Nat.succ_pos left, xs, v, e, tried, few, conclusion.symm, told,
        rfl, rfl⟩⟩
    | ok id =>
      obtain ⟨ids, u, gathered, ends⟩ := ih (follows.horizon.trans patient) (id :: acc)
      simp only [List.reverse_cons, List.append_assoc, List.singleton_append] at ends
      refine ⟨id :: ids, u, .more tried few conclusion.symm gathered, ?_⟩
      rw [List.length_cons, Nat.succ_inj, Nat.succ_lt_succ_iff]
      exact ends

theorem issueOne_of_cancelled (s : Series) {r : RetrySettings} (told : w.isCancelled)
    (pos : 0 < r.maxAttempts) : (s.issueOne r).run w = (.finished (.error .cancelled), w) := by
  obtain ⟨left, some⟩ := Nat.exists_eq_succ_of_ne_zero (Nat.ne_of_gt pos)
  rw [issueOne, some]
  exact retrying_of_cancelled told

theorem issueIn_of_cancelled (s : Series) {r : RetrySettings} (t : Tx) (told : w.isCancelled)
    (pos : 0 < r.maxAttempts) : (s.issueIn r t).run w = (.finished (.error .cancelled), w) := by
  obtain ⟨left, some⟩ := Nat.exists_eq_succ_of_ne_zero (Nat.ne_of_gt pos)
  rw [issueIn, some]
  exact retrying_of_cancelled told

theorem issueBatch_of_cancelled (s : Series) (r : RetrySettings) (told : w.isCancelled)
    (pos : 0 < n) : (s.issueBatch r n).run w = (.finished (.error .cancelled), w) := by
  rw [issueBatch, if_neg (Nat.ne_of_gt pos), Plan.run, told, if_pos rfl]
  rfl

theorem issueBatch_run_start (s : Series) (r : RetrySettings) (goesOn : w.isCancelled = false)
    (pos : 0 < n) : (s.issueBatch r n).run w = match w.start with
      | (.answer (.ok t), v) => (s.issueRest r t n []).run v
      | (.answer (.error e), v) => (.finished (.error (.ledger e)), v)
      | (_, v) => (.hung, v) := by
  rw [issueBatch, if_neg (Nat.ne_of_gt pos), Plan.run, goesOn, if_neg Bool.false_ne_true, Plan.run]
  obtain ⟨reply, v⟩ := w.start
  cases reply with
  | answer opened => cases opened <;> rfl
  | waits | never => rfl

/-- **Whenever an issue is told to stop**, it starts no further attempt, and makes no call at all if
that was beforehand. It comes to what its last attempt settles, or to the end of its attempts, or it
gives back that it was told to stop. A batch commits only if all its identifiers are there, and
otherwise it aborts. All of them come back unless a call that opens or ends a transaction is
lost. -/
theorem issue_stops (s : Series) (r : RetrySettings) (patient : w.horizon = none) :
    (w.isCancelled → 0 < r.maxAttempts →
      (s.issueOne r).run w = (.finished (.error .cancelled), w) ∧
      ∀ t, (s.issueIn r t).run w = (.finished (.error .cancelled), w)) ∧
    (∀ result w', (s.issueOne r).run w = (result, w') →
      Attempted r (s.attemptAlone r) [] w result w' ∧
      ∃ calls, w.Follows w' calls ∧ (result = .hung ↔ Lost w.faults Call.Deals calls)) ∧
    (∀ t, ∃ x w', (s.issueIn r t).run w = (.finished x, w') ∧
      Attempted r (s.attemptIn r t) [] w (.finished x) w') ∧
    ∀ n, 0 < n →
      (w.isCancelled → (s.issueBatch r n).run w = (.finished (.error .cancelled), w)) ∧
      ∀ result w', (s.issueBatch r n).run w = (result, w') →
        (w.isCancelled = false → ∀ t v, w.start = (.answer (.ok t), v) →
          Batched s r t [] n v result w') ∧
        (∀ e, result = .finished (.error e) → ∃ opened ≤ 1, w.Balance w' [] 0 opened) ∧
        ∃ calls, w.Follows w' calls ∧ (result = .hung ↔ Lost w.faults Call.Deals calls) := by
  refine ⟨fun told pos => ⟨s.issueOne_of_cancelled told pos, fun t =>
    s.issueIn_of_cancelled t told pos⟩, ?_, fun t => ?_, fun n pos => ⟨fun told =>
    s.issueBatch_of_cancelled r told pos, ?_⟩⟩
  · rintro result w' run
    have attempted := s.issueOne_attempted r patient
    have traces := Plan.run_follows (s.makes_issueOne r) w
    rw [run] at attempted traces
    exact ⟨attempted, traces.hung_iff patient⟩
  · obtain ⟨x, returns⟩ := s.issueIn_returns r t patient
    have attempted := s.issueIn_attempted r t patient
    rw [returns] at attempted
    exact ⟨x, _, Prod.ext returns rfl, attempted⟩
  · rintro result w' run
    have ensures := s.issueBatch_ensures r pos w
    have traces := Plan.run_follows (s.makes_issueBatch r n) w
    refine ⟨fun goesOn t v start => ?_, fun e failed => ?_, ?_⟩
    · have opened := w.follows_start
      rw [start] at opened
      have batched := s.issueRest_batched r t (opened.horizon.trans patient) n []
      rw [issueBatch_run_start s r goesOn pos, start] at run
      dsimp only at run
      rwa [run] at batched
    · have ends := ensures.finished ((congrArg Prod.fst run).trans failed)
      rw [run] at ends
      obtain ⟨deals, opened, dealt, -, few⟩ := ends
      exact ⟨opened, few, dealt.toBalance⟩
    · rw [run] at traces
      exact traces.hung_iff patient

end Series

/-- A world in which the first addition fails, and somebody says to stop while it is under way. -/
def World.hasty : World where
  ledger := {}
  faults
    | .increment => [.fail (.conflict "250314")]
    | _ => []
  clock := fun _ => ⟨1741942800, 0, 0⟩
  stopAfter := some 2

/-- The attempt under way fails, and there is no other. -/
theorem Series.issue_stops_hasty :
    ∃ w' v', ((Series.roll {}).issueOne {}).run .hasty = (.finished (.error .cancelled), w') ∧
      Attempted {} ((Series.roll {}).attemptAlone {}) [] .hasty (.finished (.error .cancelled)) w' ∧
      ((Series.roll {}).issueBatch {} 2).run .hasty = (.finished (.error .cancelled), v') ∧
      ∃ opened ≤ 1, World.hasty.Balance v' [] 0 opened := by
  have one : (((Series.roll {}).issueOne {}).run .hasty).1 = .finished (.error .cancelled) := by cbv
  have two : (((Series.roll {}).issueBatch {} 2).run .hasty).1 = .finished (.error .cancelled) := by
    cbv
  obtain ⟨-, single, -, batch⟩ := Series.issue_stops (w := .hasty) (.roll {}) {} rfl
  have attempted := (single _ _ (Prod.ext one rfl)).1
  have balance := ((batch 2 (by decide)).2 _ _ (Prod.ext two rfl)).2.1 _ rfl
  exact ⟨_, _, Prod.ext one rfl, attempted, Prod.ext two rfl, balance⟩

end Docket
