import Docket.Proofs.Issue.Drafts
import Mathlib.Data.List.Basic

/-!
# Picking free identifiers

What an issue comes to, where nothing disturbs it, is told by the slate alone: it picks the first
draft that no record carries, and a batch does so again and again.

* `Series.pick_of_drafts`, **`Series.pickMany_of_drafts`**: what is picked of drafts that are made
  one after another.
-/

namespace Docket

/-! ## Patience -/

/-- Whether nothing free comes after `m` identifiers in a row that are taken. -/
def Patient (m : Nat) (taken : String → Prop) (ids : List String) : Prop :=
  ∀ before block later, ids = before ++ block ++ later → block.length = m →
    (∀ id ∈ block, taken id) → ∀ id ∈ later, taken id

theorem Patient.of_append {m : Nat} {taken : String → Prop} {ids ids' : List String}
    (h : Patient m taken (ids ++ ids')) : Patient m taken ids' := by
  intro before block later split
  exact h (ids ++ before) block later (by rw [split]; simp only [List.append_assoc])

theorem Patient.congr {m : Nat} {taken taken' : String → Prop} {ids : List String}
    (same : ∀ id ∈ ids, taken id ↔ taken' id) (h : Patient m taken ids) :
    Patient m taken' ids := by
  rintro before block later rfl length all id hid
  have all : ∀ id ∈ block, taken id := fun i hi => (same i (by simp [hi])).mpr (all i hi)
  exact (same id (by simp [hid])).mp (h before block later rfl length all id hid)

theorem Patient.length_lt {m : Nat} {taken : String → Prop} {ids ids' : List String} {id : String}
    (h : Patient m taken (ids ++ id :: ids')) (all : ∀ id ∈ ids, taken id) (free : ¬ taken id) :
    ids.length < m := by
  by_contra le
  refine free (h [] (ids.take m) (ids.drop m ++ id :: ids') ?_ ?_ (fun i hi => ?_) id (by simp))
  · rw [List.nil_append, ← List.append_assoc, List.take_append_drop]
  · exact List.length_take_of_le (Nat.le_of_not_lt le)
  · exact all i (List.mem_of_mem_take hi)

namespace Series

variable {s : Series} {r : RetrySettings} {w : World} {now : Time} {n : Nat} {σ τ : Slate}

/-! ## Picking -/

/-- The first of at most `left` drafts that no record carries. -/
def pick (s : Series) (r : RetrySettings) (now : Time) :
    Nat → Slate → Except Error String × Slate
  | 0, σ => (.error (.exhausted r.maxAttempts none), σ)
  | left + 1, σ =>
    match s.draft.eval now σ with
    | (.error e, τ) => (.error e, τ)
    | (.ok id, τ) =>
      if σ.ledger.IsRecorded s.field id then s.pick r now left τ else (.ok id, τ)

/-- The first drafts that no record carries, if each is found within the attempts it has. -/
def pickMany (s : Series) (r : RetrySettings) (now : Time) :
    Nat → Slate → Except Error (List String) × Slate
  | 0, σ => (.ok [], σ)
  | n + 1, σ =>
    match s.pick r now r.maxAttempts σ with
    | (.error e, τ) => (.error e, τ)
    | (.ok id, τ) => ((s.pickMany r now n τ).1.map (id :: ·), (s.pickMany r now n τ).2)

theorem pickMany_of_error {e : Error}
    (h : s.pick r now r.maxAttempts σ = (.error e, τ)) :
    s.pickMany r now (n + 1) σ = (.error e, τ) := by
  rw [pickMany, h]

theorem pickMany_of_ok {id : String}
    (h : s.pick r now r.maxAttempts σ = (.ok id, τ)) :
    s.pickMany r now (n + 1) σ =
      ((s.pickMany r now n τ).1.map (id :: ·), (s.pickMany r now n τ).2) := by
  rw [pickMany, h]

/-- **A loop of attempts** comes to the first draft that no record carries. -/
theorem Settles.retrying_run {attempt : Plan Attempt} {commits aborts : Nat} {P : World → Prop}
    (settles : s.Settles now attempt commits aborts P) (hw : P w) (left : Nat) :
    ∃ w' k, (retrying r attempt left none).run w = (.finished (s.pick r now left w.slate).1, w') ∧
      P w' ∧ w'.slate = (s.pick r now left w.slate).2 ∧
      w.Spent w' (if (s.pick r now left w.slate).1.isOk then commits else 0) (aborts * k) := by
  induction left generalizing w with
  | zero => exact ⟨w, 0, rfl, hw, rfl, .refl w⟩
  | succ left ih =>
    have goesOn := (settles.calm w hw).isCancelled
    rw [pick]
    generalize hd : s.draft.eval now w.slate = drafted
    obtain ⟨e | id, τ⟩ := drafted
    · obtain ⟨w₁, run, hw₁, slate, spent⟩ := settles.fails w e hw (congrArg Prod.fst hd)
      refine ⟨w₁, 1, retrying_of_fatal goesOn run, hw₁, slate.trans (congrArg Prod.snd hd), ?_⟩
      rw [Nat.mul_one]
      exact spent
    · dsimp only
      split
      · next taken =>
        obtain ⟨w₁, run, hw₁, slate, spent⟩ := settles.skips w id hw (congrArg Prod.fst hd) taken
        obtain ⟨w₂, k, rest, hw₂, slate₂, spent₂⟩ := ih hw₁
        rw [slate, hd] at rest slate₂ spent₂
        refine ⟨w₂, k + 1, (retrying_of_collided goesOn run).trans rest, hw₂, slate₂, ?_⟩
        rw [Nat.mul_succ, Nat.add_comm]
        simpa using spent.trans spent₂
      · next clear =>
        obtain ⟨w₁, run, hw₁, slate, spent⟩ := settles.issues w id hw (congrArg Prod.fst hd) clear
        exact ⟨w₁, 0, retrying_of_issued goesOn run, hw₁, slate.trans (congrArg Prod.snd hd), spent⟩

/-! ## From drafts -/

variable {l : Ledger} {ds ds' : List String}

theorem isRecorded_slate (same : σ.records = l.records) {field value : String} :
    σ.ledger.IsRecorded field value ↔ l.IsRecorded field value := by
  rw [Ledger.IsRecorded, Ledger.IsRecorded, show σ.ledger.records = l.records from same]

theorem pick_of_drafts {id : String} {left : Nat} (same : σ.records = l.records)
    (drafts : s.Drafts now (ds ++ id :: ds') σ τ) (taken : ∀ d ∈ ds, l.IsRecorded s.field d)
    (clear : ¬ l.IsRecorded s.field id) (lt : ds.length < left) :
    ∃ σ', s.pick r now left σ = (.ok id, σ') ∧ s.Drafts now ds' σ' τ ∧ σ'.records = l.records := by
  obtain ⟨left, rfl⟩ := Nat.exists_eq_succ_of_ne_zero (Nat.ne_zero_of_lt lt)
  induction ds generalizing σ left with
  | nil =>
    cases drafts with
    | @cons _ _ _ σ' _ draft rest =>
      refine ⟨σ', ?_, rest, (records_of_draft draft).trans same⟩
      rw [pick, draft]
      exact if_neg fun known => clear ((isRecorded_slate same).mp known)
  | cons d ds ih =>
    cases drafts with
    | @cons _ _ _ σ₁ _ draft rest =>
      have lt : ds.length < left := Nat.lt_of_succ_lt_succ lt
      obtain ⟨left, rfl⟩ := Nat.exists_eq_succ_of_ne_zero (Nat.ne_zero_of_lt lt)
      obtain ⟨known, taken⟩ := List.forall_mem_cons.mp taken
      obtain ⟨σ', picked, rest, same'⟩ :=
        ih ((records_of_draft draft).trans same) rest taken left lt
      refine ⟨σ', ?_, rest, same'⟩
      rw [← picked, pick, draft]
      exact if_pos ((isRecorded_slate same).mpr known)

/-- **Of drafts made one after another** all that are free are picked, unless patience runs out on
the way. -/
theorem pickMany_of_drafts (same : σ.records = l.records) (drafts : s.Drafts now ds σ τ)
    (patient : Patient r.maxAttempts (l.IsRecorded s.field) ds) :
    (s.pickMany r now (ds.filter (¬ l.IsRecorded s.field ·)).length σ).1 =
      .ok (ds.filter (¬ l.IsRecorded s.field ·)) := by
  generalize hf : ds.filter (¬ l.IsRecorded s.field ·) = free
  induction free generalizing σ ds with
  | nil => rfl
  | cons id free ih =>
    obtain ⟨before, later, rfl, taken, clear, rest⟩ := List.filter_eq_cons_iff.mp hf
    simp only [decide_not, Bool.not_eq_true', decide_eq_false_iff_not, not_not] at taken clear
    obtain ⟨σ', picked, drafts, same⟩ :=
      pick_of_drafts same drafts taken clear (patient.length_lt taken clear)
    have more := ih same drafts (List.append_cons .. ▸ patient).of_append rest
    rw [List.length_cons, pickMany_of_ok picked, more]
    rfl

end Series

end Docket
