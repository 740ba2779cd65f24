import Docket.Proofs.Issue.Attempts
import Docket.Proofs.Issue.Tidy

/-!
# Drafts

A draft is an allocation and its identifier, whether a record carries it or not. An attempt is a
draft and a look at the records.

* **`Series.Settles.retrying_skips`**: a loop around such attempts goes on after drafts that are
  taken.
-/

namespace Docket

/-- Allocates and writes the identifier, without asking whether a record carries it. -/
def Series.draft (s : Series) : Work String := .now fun now => (s.allocate now).bind s.write

/-- Identifiers that are drafted one after another, from the first slate to the second. -/
inductive Series.Drafts (s : Series) (now : Time) : List String → Slate → Slate → Prop
  | nil (σ : Slate) : Drafts s now [] σ σ
  | cons {id : String} {ids : List String} {σ σ' τ : Slate}
      (draft : s.draft.eval now σ = (.ok id, σ')) (rest : Drafts s now ids σ' τ) :
      Drafts s now (id :: ids) σ τ

section Draft

variable {s : Series} {w w' : World} {now : Time} {σ σ' τ : Slate}
  {ds ds' : List String}

theorem Series.tidy_draft : s.draft.Tidy now (s.key now) := tidy_allocate.bind tidy_write

theorem Series.Drafts.append (h : s.Drafts now ds σ σ') (h' : s.Drafts now ds' σ' τ) :
    s.Drafts now (ds ++ ds') σ τ := by
  induction h with
  | nil => exact h'
  | cons draft _ ih => exact .cons draft (ih h')

theorem Series.records_of_draft {id : String} (draft : s.draft.eval now σ = (.ok id, σ')) :
    σ'.records = σ.records :=
  (congrArg (·.2.records) draft).symm.trans (Work.eval_records ..)

theorem Series.Drafts.records (h : s.Drafts now ds σ τ) : τ.records = σ.records := by
  induction h with
  | nil => rfl
  | cons draft _ ih => exact ih.trans (records_of_draft draft)

/-! ## Attempts -/

theorem World.knows_slate (h : σ.records = w.slate.records) (field value : String) :
    σ.ledger.knows (.recorded field value) = decide (w.ledger.IsRecorded field value) := by
  simp only [Ledger.knows, Ledger.IsRecorded, Slate.ledger, h]
  rfl

theorem World.isRecorded_iff (h : w'.slate.records = w.slate.records) {field value : String} :
    w'.ledger.IsRecorded field value ↔ w.ledger.IsRecorded field value := by
  rw [Ledger.IsRecorded, Ledger.IsRecorded, show w'.ledger.records = w.ledger.records from h]

theorem Series.candidate_eval (w : World) : s.candidate.eval now w.slate =
    ((s.draft.eval now w.slate).1.map fun id =>
      if w.ledger.IsRecorded s.field id then .taken id else .clear id,
      (s.draft.eval now w.slate).2) := by
  have split : s.candidate = s.draft.bind fun id => .touch (.recorded s.field id) fun taken =>
      .done (if taken then .taken id else .clear id) := by
    simp only [candidate_eq, draft, Work.bind, Work.bind_assoc]
    rfl
  have same := Work.eval_records s.draft now w.slate
  rw [split, Work.eval_bind]
  generalize s.draft.eval now w.slate = reply at same ⊢
  obtain ⟨r, σ⟩ := reply
  cases r with
  | error e => rfl
  | ok id =>
    simp only [Work.eval, Slate.touch, Touch.answer, World.knows_slate same, decide_eq_true_eq]
    rfl

/-! ## Settling -/

/-- Whether the draft after `i` others is on record. -/
def Series.Taken (s : Series) (now : Time) (w : World) (i : Nat) : Prop :=
  ∃ id, w.slate.nth s.draft now i = .ok id ∧ w.ledger.IsRecorded s.field id

/-- Whether attempts settle what they draft, in worlds with a property that they keep: what is taken
is skipped, what is not is issued, and an error is for good. -/
structure Series.Settles (s : Series) (now : Time) (attempt : Plan Attempt) (commits aborts : Nat)
    (P : World → Prop) : Prop where
  calm : ∀ w, P w → w.Calm now
  skips : ∀ w id, P w → (s.draft.eval now w.slate).1 = .ok id → w.ledger.IsRecorded s.field id →
    ∃ w', attempt.run w = (.finished .collided, w') ∧ P w' ∧
      w'.slate = (s.draft.eval now w.slate).2 ∧ w.Spent w' 0 aborts
  issues : ∀ w id, P w → (s.draft.eval now w.slate).1 = .ok id → ¬ w.ledger.IsRecorded s.field id →
    ∃ w', attempt.run w = (.finished (.issued id), w') ∧ P w' ∧
      w'.slate = (s.draft.eval now w.slate).2 ∧ w.Spent w' commits 0
  fails : ∀ w e, P w → (s.draft.eval now w.slate).1 = .error e →
    ∃ w', attempt.run w = (.finished (.fatal e), w') ∧ P w' ∧
      w'.slate = (s.draft.eval now w.slate).2 ∧ w.Spent w' 0 aborts

/-- An attempt that comes to what its work says on the slate settles its draft. -/
theorem Series.Settles.of_run {attempt : Plan Attempt} {commits aborts : Nat} {P : World → Prop}
    (calm : ∀ w, P w → w.Calm now)
    (h : ∀ w, P w → ∃ w', attempt.run w =
        (.finished (.ofResult (s.candidate.eval now w.slate).1), w') ∧ P w' ∧
      w'.slate = (s.candidate.eval now w.slate).2 ∧
      match (s.candidate.eval now w.slate).1 with
      | .ok (.clear _) => w.Spent w' commits 0
      | _ => w.Spent w' 0 aborts) : s.Settles now attempt commits aborts P where
  calm := calm
  skips w id hw hd taken := by
    have run := h w hw
    rw [candidate_eval, hd, Except.map, if_pos taken] at run
    exact run
  issues w id hw hd clear := by
    have run := h w hw
    rw [candidate_eval, hd, Except.map, if_neg clear] at run
    exact run
  fails w e hw hd := by
    have run := h w hw
    rw [candidate_eval, hd, Except.map, Attempt.ofResult,
      Attempt.ofError_of_not_transient (tidy_draft.eval_error hd)] at run
    exact run

/-! ## The loop -/

section Loop

variable {attempt : Plan Attempt} {r : RetrySettings} {left j commits aborts : Nat} {id : String}
  {e : Error} {P : World → Prop} {last : Option LedgerError}

/-- **Attempts whose drafts are taken are skipped**: the loop goes on after them. -/
theorem Series.Settles.retrying_skips (settles : s.Settles now attempt commits aborts P) (hw : P w)
    (hj : j ≤ left) (taken : ∀ i < j, s.Taken now w i) :
    ∃ w', (retrying r attempt left last).run w = (retrying r attempt (left - j) last).run w' ∧
      P w' ∧ w'.slate = w.slate.after s.draft now j ∧ w.Spent w' 0 (aborts * j) := by
  induction j with
  | zero => exact ⟨w, rfl, hw, rfl, .refl w⟩
  | succ j ih =>
    obtain ⟨w₁, run, hw₁, slate₁, spent₁⟩ := ih (by omega) fun i hi => taken i (by omega)
    obtain ⟨id, hd, known⟩ := taken j (by omega)
    rw [Slate.nth, ← slate₁] at hd
    have same : w₁.slate.records = w.slate.records := by rw [slate₁, Slate.after_records]
    obtain ⟨w₂, run₂, hw₂, slate₂, spent₂⟩ :=
      settles.skips w₁ id hw₁ hd ((World.isRecorded_iff same).mpr known)
    refine ⟨w₂, ?_, hw₂, ?_, spent₁.trans spent₂⟩
    · rw [run, show left - j = left - (j + 1) + 1 by omega]
      exact retrying_of_collided (settles.calm w₁ hw₁).isCancelled run₂
    · rw [slate₂, slate₁, Slate.after]

theorem Series.Settles.retrying_issues (settles : s.Settles now attempt commits aborts P) (hw : P w)
    (hj : j < left) (taken : ∀ i < j, s.Taken now w i) (hd : w.slate.nth s.draft now j = .ok id)
    (clear : ¬ w.ledger.IsRecorded s.field id) :
    ∃ w', (retrying r attempt left last).run w = (.finished (.ok id), w') ∧ P w' ∧
      w'.slate = w.slate.after s.draft now (j + 1) ∧ w.Spent w' commits (aborts * j) := by
  obtain ⟨w₁, run, hw₁, slate, spent⟩ := settles.retrying_skips hw (Nat.le_of_lt hj) taken
  have same : w₁.slate.records = w.slate.records := by rw [slate, Slate.after_records]
  rw [Slate.nth, ← slate] at hd
  obtain ⟨w₂, run₂, hw₂, slate₂, spent₂⟩ :=
    settles.issues w₁ id hw₁ hd fun known => clear ((World.isRecorded_iff same).mp known)
  refine ⟨w₂, ?_, hw₂, ?_, ?_⟩
  · rw [run, show left - j = left - (j + 1) + 1 by omega]
    exact retrying_of_issued (settles.calm w₁ hw₁).isCancelled run₂
  · rw [slate₂, slate, Slate.after]
  · simpa using spent.trans spent₂

theorem Series.Settles.retrying_fails (settles : s.Settles now attempt commits aborts P) (hw : P w)
    (hj : j < left) (taken : ∀ i < j, s.Taken now w i)
    (hd : w.slate.nth s.draft now j = .error e) :
    ∃ w', (retrying r attempt left last).run w = (.finished (.error e), w') ∧ P w' ∧
      w'.slate = w.slate.after s.draft now (j + 1) ∧ w.Spent w' 0 (aborts * (j + 1)) := by
  obtain ⟨w₁, run, hw₁, slate, spent⟩ := settles.retrying_skips hw (Nat.le_of_lt hj) taken
  rw [Slate.nth, ← slate] at hd
  obtain ⟨w₂, run₂, hw₂, slate₂, spent₂⟩ := settles.fails w₁ e hw₁ hd
  refine ⟨w₂, ?_, hw₂, ?_, spent.trans spent₂⟩
  · rw [run, show left - j = left - (j + 1) + 1 by omega]
    exact retrying_of_fatal (settles.calm w₁ hw₁).isCancelled run₂
  · rw [slate₂, slate, Slate.after]

theorem Series.Settles.retrying_exhausts (settles : s.Settles now attempt commits aborts P)
    (hw : P w) (taken : ∀ i < left, s.Taken now w i) :
    ∃ w', (retrying r attempt left last).run w =
        (.finished (.error (.exhausted r.maxAttempts last)), w') ∧ P w' ∧
      w'.slate = w.slate.after s.draft now left ∧ w.Spent w' 0 (aborts * left) := by
  obtain ⟨w₁, run, rest⟩ := settles.retrying_skips hw (Nat.le_refl left) taken
  refine ⟨w₁, ?_, rest⟩
  rw [run, Nat.sub_self]
  rfl

/-- **What a loop issues** is the first of its drafts that is not taken. -/
theorem Series.Settles.retrying_ok (settles : s.Settles now attempt commits aborts P) (hw : P w)
    (run : (retrying r attempt left last).run w = (.finished (.ok id), w')) :
    P w' ∧ ¬ w.ledger.IsRecorded s.field id ∧
      ∃ ds, (∀ d ∈ ds, w.ledger.IsRecorded s.field d) ∧
        s.Drafts now (ds ++ [id]) w.slate w'.slate := by
  induction left generalizing w with
  | zero => cases run
  | succ left ih =>
    have goesOn := (settles.calm w hw).isCancelled
    cases hd : (s.draft.eval now w.slate).1 with
    | error e =>
      obtain ⟨w₁, run₁, -⟩ := settles.fails w e hw hd
      rw [retrying_of_fatal goesOn run₁] at run
      cases run
    | ok id' =>
      by_cases taken : w.ledger.IsRecorded s.field id'
      · obtain ⟨w₁, run₁, hw₁, slate₁, -⟩ := settles.skips w id' hw hd taken
        rw [retrying_of_collided goesOn run₁] at run
        obtain ⟨hw', clear, ds, all, drafts⟩ := ih hw₁ run
        have same : w₁.slate.records = w.slate.records := by rw [slate₁, Work.eval_records]
        simp only [World.isRecorded_iff same] at clear all
        refine ⟨hw', clear, id' :: ds, fun d hm => ?_, .cons (Prod.ext hd slate₁.symm) drafts⟩
        rcases List.mem_cons.mp hm with rfl | hm
        · exact taken
        · exact all d hm
      · obtain ⟨w₁, run₁, hw₁, slate₁, -⟩ := settles.issues w id' hw hd taken
        rw [retrying_of_issued goesOn run₁] at run
        cases run
        exact ⟨hw₁, taken, [], nofun, .cons (Prod.ext hd slate₁.symm) (.nil _)⟩

end Loop

end Draft

end Docket
