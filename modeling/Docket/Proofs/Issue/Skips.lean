import Docket.Proofs.Issue.Drafts
import Mathlib

/-!
# Which identifier is issued

* `World.Issued`: what an issue leaves of a world;
* `Series.attemptAlone_run`, `Series.settles_attemptAlone`: an attempt comes to what a draft comes
  to, and ends its transaction;
* **`Series.issueOne_skips`**: the first draft that is not taken settles what is issued.
-/

namespace Docket

/-- The second world comes after the first, with so many more commits and aborts, these counters,
and the same records. -/
structure World.Issued (w w' : World) (commits aborts : Nat)
    (counters : Std.ExtTreeMap String Counter) : Prop extends w.Spent w' commits aborts where
  counters : w'.ledger.counters = counters
  records : w'.ledger.records = w.ledger.records

namespace Series

variable {s : Series} {r : RetrySettings} {w w' : World} {now : Time}

/-- **An attempt in its own transaction** comes to what its work says on the slate. It commits if
the identifier is clear, and aborts otherwise. -/
theorem attemptAlone_run (quiet : w.Quiet now (s.key now)) :
    ∃ w', (s.attemptAlone r).run w =
        (.finished (.ofResult (s.candidate.eval now w.slate).1), w') ∧
      w'.Quiet now (s.key now) ∧ w'.slate = (s.candidate.eval now w.slate).2 ∧
      match (s.candidate.eval now w.slate).1 with
      | .ok (.clear _) => w.Spent w' 1 0
      | _ => w.Spent w' 0 1 := by
  obtain ⟨w₀, start, ready, spent, slate, un⟩ := quiet.start
  obtain ⟨w₁, run, ready', spent', slate', un'⟩ := Work.run_eq tidy_candidate ready
  rw [slate] at run slate'
  have before := spent.trans spent'
  simp only [attemptAlone, Plan.run, start, run]
  split
  · next id e =>
    obtain ⟨w₂, finish, calm', spent₂, slate₂, free⟩ := ready'.finish .commit
    simp only [Plan.run, finish, e]
    exact ⟨w₂, rfl, ⟨calm', free (un' un)⟩, slate₂.trans slate', before.trans spent₂⟩
  · next none =>
    obtain ⟨w₂, finish, calm', spent₂, slate₂, free⟩ := ready'.finish .abort
    simp only [Plan.run, finish]
    exact ⟨w₂, rfl, ⟨calm', free (un' un)⟩, slate₂.trans slate', before.trans spent₂⟩

theorem settles_attemptAlone :
    s.Settles now (s.attemptAlone r) 1 1 fun w => w.Quiet now (s.key now) :=
  .of_run (fun _ quiet => quiet.toCalm) fun _ quiet => attemptAlone_run quiet

theorem issued_of_slate {commits aborts n : Nat} (spent : w.Spent w' commits aborts)
    (slate : w'.slate = w.slate.after s.draft now n) :
    w.Issued w' commits aborts (w.slate.after s.draft now n).counters :=
  ⟨spent, congrArg Slate.counters slate,
    (congrArg Slate.records slate).trans (Slate.after_records n)⟩

/-- **The first draft that is not taken settles what is issued.** It is drawn, written and counted
as if drafts were made one after another; each draft before it costs an abort, and nothing else
changes. If all that may be made are taken, the issue ends so. -/
theorem issueOne_skips (quiet : w.Quiet now (s.key now)) :
    let t := w.ledger.start.1
    let opened := w.start.2
    let known id := w.ledger.IsRecorded s.field id
    let taken i := ∃ id, opened.nth s.draft t i = .finished (.ok id) ∧ known id
    (∀ i, ∃ result, opened.nth s.draft t i = .finished result) ∧
    (∀ j id, j < r.maxAttempts → (∀ i < j, taken i) → opened.nth s.draft t j = .finished (.ok id) →
      ¬ known id →
      ∃ w', (s.issueOne r).run w = (.finished (.ok id), w') ∧
        w.Issued w' 1 j (opened.after s.draft t (j + 1)).ledger.counters) ∧
    (∀ j e, j < r.maxAttempts → (∀ i < j, taken i) → opened.nth s.draft t j = .finished (.error e) →
      ∃ w', (s.issueOne r).run w = (.finished (.error e), w') ∧
        w.Issued w' 0 (j + 1) (opened.after s.draft t (j + 1)).ledger.counters) ∧
    ((∀ i < r.maxAttempts, taken i) →
      ∃ w', (s.issueOne r).run w = (.finished (.error (.exhausted r.maxAttempts none)), w') ∧
        w.Issued w' 0 r.maxAttempts (opened.after s.draft t r.maxAttempts).ledger.counters) ∧
    ∀ id w', (s.issueOne r).run w = (.finished (.ok id), w') → ¬ known id := by
  intro t opened known taken
  -- In the opened world drafts come to what they come to on the slate.
  obtain ⟨w₀, start, ready, -, slate, -⟩ := quiet.start
  have opened_eq : opened = w₀ := congrArg Prod.snd start
  have draft i : opened.nth s.draft t i = .finished (w.slate.nth s.draft now i) := by
    rw [opened_eq, ready.nth tidy_draft, slate]
  have result i {x} (h : opened.nth s.draft t i = .finished x) :
      w.slate.nth s.draft now i = x := Halt.finished.inj ((draft i).symm.trans h)
  have counters i :
      (opened.after s.draft t i).ledger.counters = (w.slate.after s.draft now i).counters := by
    rw [← slate, ← (ready.after tidy_draft i).2, opened_eq]
    rfl
  have isTaken {i} (h : taken i) : s.Taken now w i := by
    obtain ⟨id, hd, known⟩ := h
    exact ⟨id, result i hd, known⟩
  refine ⟨fun i => ⟨_, draft i⟩, fun j id hj h hd clear => ?_, fun j e hj h hd => ?_, fun h => ?_,
    fun id w' run => (settles_attemptAlone.retrying_ok quiet run).2.1⟩ <;> rw [counters]
  · obtain ⟨w', run, -, slate, spent⟩ := settles_attemptAlone.retrying_issues quiet hj
      (fun i hi => isTaken (h i hi)) (result j hd) clear
    rw [Nat.one_mul] at spent
    exact ⟨w', run, issued_of_slate spent slate⟩
  · obtain ⟨w', run, -, slate, spent⟩ := settles_attemptAlone.retrying_fails quiet hj
      (fun i hi => isTaken (h i hi)) (result j hd)
    rw [Nat.one_mul] at spent
    exact ⟨w', run, issued_of_slate spent slate⟩
  · obtain ⟨w', run, -, slate, spent⟩ := settles_attemptAlone.retrying_exhausts quiet
      fun i hi => isTaken (h i hi)
    rw [Nat.one_mul] at spent
    exact ⟨w', run, issued_of_slate spent slate⟩

end Series

/-- A quiet world on 14 March 2025, whose records carry the first roll number of the day. -/
def World.sample : World where
  ledger := ({} : Ledger).extendRecords "registration_no" ["250314-0-01"]
  clock := fun _ => ⟨1741942800, 0, 0⟩

theorem Series.issueOne_skips_sample :
    ∃ w', ((Series.roll {}).issueOne {}).run .sample = (.finished (.ok "250314-0-02"), w') ∧
      World.sample.Issued w' 1 1
        (World.sample.start.2.after (Series.roll {}).draft ⟨0, 0⟩ 2).ledger.counters := by
  have quiet : World.sample.Quiet ⟨1741942800, 0, 0⟩ ((Series.roll {}).key ⟨1741942800, 0, 0⟩) :=
    ⟨⟨fun _ => rfl, fun _ => rfl, rfl⟩, fun l hl => by cases hl⟩
  have taken : ∀ i < 1, ∃ id,
      World.sample.start.2.nth (Series.roll {}).draft ⟨0, 0⟩ i = .finished (.ok id) ∧
        World.sample.ledger.IsRecorded "registration_no" id := by
    intro i hi
    obtain rfl := Nat.lt_one_iff.mp hi
    exact ⟨"250314-0-01", by cbv, by decide +kernel⟩
  exact (issueOne_skips quiet).2.1 1 "250314-0-02" (by decide) taken (by cbv) (by decide +kernel)

end Docket