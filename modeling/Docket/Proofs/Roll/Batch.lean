import Docket.Desk
import Docket.Proofs.Issue.Batch
import Docket.Proofs.Roll.Allot
import Docket.Proofs.Roll.Repeats
import Mathlib

/-!
# Roll numbers in a batch

A batch asks the records whether a roll number is taken, but it does not ask the batch itself. Once
it has gone through the whole cycle it comes to its own roll numbers again.

* `Ledger.spare`, **`Desk.reserve_nodup_iff`**: a batch is free of repeats exactly if it asks for no
  more roll numbers than there are on no record.
-/

namespace Docket

namespace RollCycle

variable {period : String} {top : UInt64} {l : RollSettings} {now : Time} {σ σ' τ : Slate}
  {q m : Nat} {a : Allocation} {id : String} {ds : List String}

/-! ## Drafts in turn -/

theorem draft_eval (l : RollSettings) (now : Time) (σ : Slate) :
    (Series.roll l).draft.eval now σ = match ((Series.roll l).allocate now).eval now σ with
      | (.ok a, σ') => ((Series.roll l).format a [], σ')
      | (.error e, σ') => (.error e, σ') := by
  rw [Series.draft, Work.eval, Work.eval_bind]
  generalize ((Series.roll l).allocate now).eval now σ = reply
  obtain ⟨r, σ'⟩ := reply
  cases r with
  | error e => rfl
  | ok a =>
    show (Work.lift ((Series.roll l).format a [])).eval now σ' = ((Series.roll l).format a [], σ')
    cases (Series.roll l).format a [] <;> rfl

/-- **A draft takes the position that comes next.** -/
theorem Stands.draft (htop : 1 ≤ l.maxSequence) (hle : l.maxSequence ≤ 99)
    (h : Stands l now σ q) :
    ∃ σ', (Series.roll l).draft.eval now σ =
        (.ok (number ((Series.roll l).key now) l.maxSequence q).text, σ') ∧
      Stands l now σ' (q + 1) := by
  obtain ⟨a, σ', run, key, isAt, stands⟩ := h.allocate htop hle
  refine ⟨σ', ?_, stands⟩
  rw [draft_eval, run]
  exact congrArg (·, σ') (format_of_isAt htop hle key isAt)

theorem draft_ok (htop : 1 ≤ l.maxSequence) (hle : l.maxSequence ≤ 99)
    (run : (Series.roll l).draft.eval now σ = (.ok id, σ')) :
    ∃ q, id = (number ((Series.roll l).key now) l.maxSequence q).text ∧
      Stands l now σ' (q + 1) := by
  -- What is written of an allocation in turn has to be the identifier.
  have inTurn {a q} (tells : Tells σ' ((Series.roll l).key now) a) (isAt : a.IsAt l.maxSequence q)
      (written : (Series.roll l).format a [] = .ok id) :
      ∃ q, id = (number ((Series.roll l).key now) l.maxSequence q).text ∧
        Stands l now σ' (q + 1) := by
    rw [format_of_isAt htop hle tells.1 isAt] at written
    exact ⟨q, (Except.ok.inj written).symm, tells.stands htop hle isAt⟩
  rcases allocate_cases l now σ with ⟨e, σ₁, run₁, -⟩ | ⟨a, σ₁, run₁, tells, sequence, -, le⟩ |
    ⟨a, σ₁, run₁, tells, -, sequence, d, -, mark⟩ <;> rw [draft_eval, run₁] at run
  · cases run
  · obtain ⟨written, rfl⟩ := Prod.mk.inj run
    obtain ⟨d, hd, mark⟩ := digit_of_format written
    exact inTurn tells (isAt_of_modEq hd mark (by omega) le .rfl) written
  · obtain ⟨written, rfl⟩ := Prod.mk.inj run
    refine inTurn tells (isAt_of_modEq (nextDigit_le d) mark ?_ (by rwa [sequence]) .rfl) written
    rw [sequence]
    decide

/-- **Drafts take one position after another.** -/
theorem drafts_eq (htop : 1 ≤ l.maxSequence) (hle : l.maxSequence ≤ 99)
    (drafts : (Series.roll l).Drafts now ds σ τ) (h : Stands l now σ q) :
    ds = stretch ((Series.roll l).key now) l.maxSequence q ds.length := by
  induction drafts generalizing q with
  | nil => rfl
  | cons draft _ ih =>
    obtain ⟨σ', run, h'⟩ := h.draft htop hle
    obtain ⟨written, rfl⟩ := Prod.mk.inj (draft.symm.trans run)
    obtain rfl := Except.ok.inj written
    rw [List.length_cons, stretch_succ, ← ih h']

theorem drafts_ok (htop : 1 ≤ l.maxSequence) (hle : l.maxSequence ≤ 99)
    (drafts : (Series.roll l).Drafts now ds σ τ) :
    ∃ q, ds = stretch ((Series.roll l).key now) l.maxSequence q ds.length := by
  cases drafts with
  | nil => exact ⟨0, rfl⟩
  | cons draft rest =>
    obtain ⟨q, rfl, h⟩ := draft_ok htop hle draft
    refine ⟨q, ?_⟩
    rw [List.length_cons, stretch_succ, ← drafts_eq htop hle rest h]

end RollCycle

/-! ## The batch -/

/-- How many roll numbers of a period no record carries. -/
def Ledger.spare (l : Ledger) (s : RollSettings) (period : String) : Nat :=
  (RollCycle.stretch period s.maxSequence 0 (RollCycle.length s.maxSequence)).countP
    (¬ l.IsRecorded s.field ·)

/-- Every rule holds of settings that have been checked. -/
theorem Settings.holds_of_validate {s : Settings} (h : s.validate = .ok ()) {rule : Bool × Refusal}
    (hr : rule ∈ s.rules) : rule.1 = true := by
  unfold validate at h
  split at h
  · cases h
  · next none => simpa using List.find?_eq_none.mp none rule hr

theorem Desk.maxSequence_bounds (d : Desk) :
    1 ≤ d.settings.roll.maxSequence ∧ d.settings.roll.maxSequence ≤ 99 := by
  have holds := Settings.holds_of_validate d.valid (List.mem_cons_of_mem _ List.mem_cons_self)
  simpa using holds

/-- **A batch is free of repeats** exactly if it asks for no more roll numbers than no record
carries. -/
theorem Desk.reserve_nodup_iff (d : Desk) {w : World} {now : Time} (calm : w.Calm now) {n : Nat}
    {ids : List String} (run : ((d.serve (.reserve n)).run w).1 = .finished (.ok (.ids ids))) :
    ids.length = n ∧ (ids.Nodup ↔ n ≤ w.ledger.spare d.settings.roll now.date.dayKey) := by
  obtain ⟨htop, hle⟩ := d.maxSequence_bounds
  have batch : ∃ w', ((Series.roll d.settings.roll).issueBatch d.settings.retry n).run w =
      (.finished (.ok ids), w') := by
    rw [serve, Plan.run_bind] at run
    generalize ((Series.roll d.settings.roll).issueBatch d.settings.retry n).run w = reply at run ⊢
    obtain ⟨result | -, w'⟩ := reply
    · cases result with
      | error e => cases run
      | ok ids' => cases run; exact ⟨w', rfl⟩
    · cases run
  obtain ⟨w', batch⟩ := batch
  obtain ⟨length, ds, τ, drafts, rfl, last⟩ := Series.issueBatch_ok calm batch
  obtain ⟨q, he⟩ := RollCycle.drafts_ok htop hle drafts
  refine ⟨length, ?_⟩
  rw [he] at length last ⊢
  rw [RollCycle.nodup_filter_iff htop (by simpa using last), length]
  rfl

/-- A desk whose roll numbers have one sequence. -/
def Desk.narrow : Desk := ⟨{ roll := { maxSequence := 1 } }, by cbv⟩

/-- A world on 14 March 2025 with nothing in its ledger. -/
def World.blank : World where
  ledger := {}
  clock := fun _ => ⟨1741942800, 0, 0⟩

theorem World.calm_blank : World.blank.Calm ⟨1741942800, 0, 0⟩ :=
  ⟨fun _ => rfl, fun _ => rfl, rfl⟩

theorem Desk.reserve_nodup_iff_narrow :
    let ids := ["250314-0-01", "250314-1-01", "250314-2-01"]
    ((Desk.narrow.serve (.reserve 3)).run .blank).1 = .finished (.ok (.ids ids)) ∧
      ids.length = 3 ∧
      (ids.Nodup ↔ 3 ≤ World.blank.ledger.spare Desk.narrow.settings.roll "250314") := by
  intro ids
  have run : ((Desk.narrow.serve (.reserve 3)).run .blank).1 = .finished (.ok (.ids ids)) := by cbv
  exact ⟨run, reserve_nodup_iff .narrow World.calm_blank run⟩

/-- **A batch that repeats itself**: it asks for one roll number more than there are. -/
theorem Desk.reserve_repeats : World.blank.Calm ⟨1741942800, 0, 0⟩ ∧ ∃ ids,
    ((Desk.narrow.serve (.reserve 11)).run .blank).1 = .finished (.ok (.ids ids)) ∧
      ¬ ids.Nodup := by
  refine ⟨World.calm_blank, ["250314-0-01", "250314-1-01", "250314-2-01", "250314-3-01",
    "250314-4-01", "250314-5-01", "250314-6-01", "250314-7-01", "250314-8-01", "250314-9-01",
    "250314-0-01"], ?_, by decide⟩
  cbv

end Docket
