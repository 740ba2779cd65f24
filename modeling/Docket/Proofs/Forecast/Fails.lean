import Docket.Proofs.Desk.Answers
import Docket.Proofs.Forecast.Closed

/-!
# When a forecast fails

A forecast asks of a record that its digit can be written, and an issue asks for a digit, for the
next sequence and, unless the digit advances, that it can be written. Where the two differ, one is
made and the other fails.

* `RollCycle.allocate_full`, `RollCycle.format_ok_iff`, **`RollCycle.draft_ok_iff`**: what an issue
  asks of the record;
* `Counter.IsForetold`, **`Desk.preview_fails_iff`**: the records on which a forecast fails if and
  only if an issue does.
-/

namespace Docket

variable {l : RollSettings} {now : Time} {σ : Slate} {w : World}

/-! ## Issues -/

namespace RollCycle

theorem allocate_full
    (full : UInt64.size ≤ (first σ ((Series.roll l).key now) now).sequence.toNat + 1) :
    ∃ e σ', ((Series.roll l).allocate now).eval now σ = (.error e, σ') := by
  let key := (Series.roll l).key now
  let add := (Series.roll l).addition now []
  have none : Touch.sum? key 1 ((Series.roll l).seed now []) now σ.counters[key]? = none :=
    if_neg (Nat.not_lt.mpr full)
  have answer : σ.touch add = (.error (.backend (.overflowed key)), (σ.touch add).2) :=
    Prod.ext (Touch.answer_increment_of_none none false) rfl
  have start : ((Series.roll l).allocate now).eval now σ =
      (Work.touch add ((Series.roll l).settle now false)).eval now σ := rfl
  rw [start, Work.eval, answer]
  exact ⟨_, _, rfl⟩

theorem format_ok_iff {a : Allocation} (hkey : a.key = (Series.roll l).key now) :
    (∃ id, (Series.roll l).format a [] = .ok id) ↔
      ∃ d, a.mark = .digit d ∧ d ≤ 9 ∧ a.sequence ≤ 99 := by
  constructor
  · rintro ⟨id, written⟩
    obtain ⟨d, small, mark⟩ := digit_of_format written
    simp only [Series.format, mark, Mark.digit?] at written
    exact ⟨d, mark, small, (RollNumber.format_eq_ok_iff.mp written).2.2.1⟩
  · rintro ⟨d, mark, small, le⟩
    refine ⟨RollNumber.text ⟨a.key, d, a.sequence⟩, ?_⟩
    simp only [Series.format, mark, Mark.digit?]
    exact RollNumber.format_ok (hkey ▸ Date.check_dayKey now.date) small le

/-- **A draft is made** exactly if there is a next sequence, and a digit that can be written or
advances. -/
theorem draft_ok_iff (hle : l.maxSequence ≤ 99) {c : Counter}
    (hc : first σ ((Series.roll l).key now) now = c) :
    (∃ id, ((Series.roll l).draft.eval now σ).1 = .ok id) ↔
      c.sequence.toNat + 1 < UInt64.size ∧
        ∃ d, c.mark = .digit d ∧ (d ≤ 9 ∨ l.maxSequence ≤ c.sequence) := by
  subst hc
  let c := first σ ((Series.roll l).key now) now
  rw [draft_eval]
  by_cases full : UInt64.size ≤ c.sequence.toNat + 1
  · obtain ⟨e, σ', run⟩ := allocate_full full
    rw [run]
    exact ⟨nofun, fun ⟨room, _⟩ => absurd full (Nat.not_le.mpr room)⟩
  have room : c.sequence.toNat + 1 < UInt64.size := Nat.lt_of_not_le full
  rcases allocate_cases l now σ with ⟨e, σ', run, lacks⟩ | ⟨a, σ', run, tells, sequence, mark, le⟩ |
    ⟨a, σ', run, tells, past, sequence, d, hd, mark⟩ <;> rw [run]
  · have none : c.mark.digit? = none := lacks.resolve_left full
    refine ⟨nofun, fun ⟨_, d, hd, _⟩ => ?_⟩
    rw [hd] at none
    cases none
  · -- Within the last sequence the digit stays, so it has to be one that can be written.
    have within : ¬ l.maxSequence ≤ c.sequence := by
      have next := UInt64.le_iff_toNat_le.mp le
      rw [sequence] at next
      exact fun past => Nat.not_succ_le_self _ (next.trans (UInt64.le_iff_toNat_le.mp past))
    refine (format_ok_iff tells.1).trans ⟨fun ⟨d, hd, small, _⟩ => ?_, fun ⟨_, d, hd, small⟩ => ?_⟩
    · exact ⟨room, d, mark.symm.trans hd, .inl small⟩
    · exact ⟨d, mark.trans hd, small.resolve_right within, UInt64.le_trans le hle⟩
  · have past : l.maxSequence ≤ c.sequence := UInt64.le_iff_toNat_le.mpr past
    have small : a.sequence ≤ 99 := sequence ▸ by decide
    exact ⟨fun _ => ⟨room, d, hd, .inr past⟩,
      fun _ => (format_ok_iff tells.1).mpr ⟨_, mark, nextDigit_le d, small⟩⟩

end RollCycle

theorem Series.pick_of_clean {s : Series} {r : RetrySettings} {left : Nat} (pos : 1 ≤ left)
    (clean : ∀ id, ¬ σ.ledger.IsRecorded s.field id) :
    (s.pick r now left σ).1 = (s.draft.eval now σ).1 := by
  obtain ⟨left, rfl⟩ := Nat.exists_eq_add_of_le' pos
  rw [pick]
  generalize s.draft.eval now σ = reply
  obtain ⟨_ | id, τ⟩ := reply
  · rfl
  · simp only [if_neg (clean id)]

/-! ## Forecasts -/

namespace Forecast

theorem startOf_digit (r : Option Counter) (key : String) :
    (startOf r).2 = (r.getD ⟨key, 0, .digit 0, now⟩).mark.digit?.getD 0 := by
  cases r <;> rfl

/-- **A forecast of one roll number is made** exactly if the digit of the record, which counts as 0
where there is none, is a decimal digit. -/
theorem foreseen_ok_iff (htop : 1 ≤ l.maxSequence) (hle : l.maxSequence ≤ 99)
    (r : Option Counter) :
    (∃ es, foreseen l now 1 r = .ok es) ↔
      (r.getD ⟨(Series.roll l).key now, 0, .digit 0, now⟩).mark.digit?.getD 0 ≤ 9 := by
  have segment := Segment.check_eq_ok_iff.mp (Date.check_dayKey now.date "")
  rw [← startOf_digit]
  exact (simulate_closed _ _ _ _ Nat.one_pos).1.trans
    ⟨And.left, fun small => ⟨small, ⟨htop, hle⟩, segment⟩⟩

end Forecast

/-! ## Forecasts and issues -/

/-- Whether a forecast from a record and an issue are both made or both fail: the digit is a decimal
digit and there is a next sequence, or it is another number, and there is no next sequence or the
digit does not advance. -/
def Counter.IsForetold (c : Counter) (top : UInt64) : Prop :=
  ∃ d, c.mark = .digit d ∧
    if d ≤ 9 then c.sequence.toNat + 1 < UInt64.size
    else c.sequence < top ∨ UInt64.size ≤ c.sequence.toNat + 1

/-- The two conditions agree exactly on these records. -/
theorem Counter.isForetold_iff (c : Counter) (top : UInt64) : c.IsForetold top ↔
    (c.mark.digit?.getD 0 ≤ 9 ↔ c.sequence.toNat + 1 < UInt64.size ∧
      ∃ d, c.mark = .digit d ∧ (d ≤ 9 ∨ top ≤ c.sequence)) := by
  unfold IsForetold
  cases c.mark with
  | plain | lead => simp [Mark.digit?]
  | digit d =>
    simp only [Mark.digit?, Option.getD_some, Mark.digit.injEq, exists_eq_left']
    split
    · next small => simp only [small, true_or, and_true, true_iff]
    · next large =>
      simp only [large, false_iff, false_or, not_and, UInt64.not_le]
      rw [or_iff_not_imp_right, Nat.not_le]

namespace Desk

variable (d : Desk)

theorem maxAttempts_pos : 1 ≤ d.settings.retry.maxAttempts := by
  have holds := Settings.holds_of_validate d.valid List.mem_cons_self
  simpa using holds

theorem foreseen_eq_draft {es : List Forecast.Entry} {id : String}
    (forecast : Forecast.foreseen d.settings.roll now 1
      σ.counters[(Series.roll d.settings.roll).key now]? = .ok es)
    (draft : ((Series.roll d.settings.roll).draft.eval now σ).1 = .ok id) :
    ∃ e, es = [e] ∧ e.id = id := by
  obtain ⟨htop, hle⟩ := d.maxSequence_bounds
  obtain ⟨room, digit, mark, -⟩ := (RollCycle.draft_ok_iff hle rfl).mp ⟨id, draft⟩
  have small := (Forecast.foreseen_ok_iff htop hle _).mp ⟨es, forecast⟩
  have record : RollCycle.IsRecord σ.counters[(Series.roll d.settings.roll).key now]? := by
    intro c hc
    rw [RollCycle.first, hc] at mark
    rw [hc, Option.getD_some, show c.mark = .digit digit from mark] at small
    exact ⟨digit, small, mark⟩
  have stands : RollCycle.Stands d.settings.roll now σ _ := ⟨RollCycle.awaits_place record, room⟩
  obtain ⟨es', run, ids⟩ := Forecast.simulate_stretch htop hle stands 1
  obtain rfl := Except.ok.inj (forecast.symm.trans run)
  obtain ⟨σ', run', -⟩ := stands.draft htop hle
  rw [run'] at draft
  obtain ⟨e, rfl, written⟩ := List.map_eq_singleton_iff.mp ids
  exact ⟨e, rfl, written.trans (Except.ok.inj draft)⟩

/-- **A forecast fails if and only if an issue would**, where nothing is on record, exactly if the
counter of the day is one of these; a counter that is not there counts as one at 0 with digit 0. If
both give a roll number, it is the same. -/
theorem preview_fails_iff (quiet : w.Quiet now ((d.settings.series .rollNumber).key now))
    (clean : ∀ id, ¬ w.ledger.IsRecorded d.settings.roll.field id) :
    let key := (d.settings.series .rollNumber).key now
    let c := w.ledger.counters[key]?.getD ⟨key, 0, .digit 0, now⟩
    ∃ forecast issued w₁ w₂,
      (d.serve (.preview 1)).run w = (.finished forecast, w₁) ∧
      (d.serve (.issue .rollNumber)).run w = (.finished issued, w₂) ∧
      (((∃ e, forecast = .error e) ↔ ∃ e, issued = .error e) ↔
        c.IsForetold d.settings.roll.maxSequence) ∧
      ∀ r r', forecast = .ok r → issued = .ok r' → ∃ e, r = .entries [e] ∧ r' = .id e.id := by
  intro key c
  obtain ⟨htop, hle⟩ := d.maxSequence_bounds
  obtain ⟨w₁, preview, -⟩ := d.serve_run (.preview 1) quiet
  obtain ⟨w₂, issue, -⟩ := d.serve_run (.issue .rollNumber) quiet
  have issued : (d.answer now (.issue .rollNumber) w.slate).1 =
      ((Series.roll d.settings.roll).draft.eval now w.slate).1.map .id :=
    congrArg (Except.map Response.id)
      (Series.pick_of_clean (s := .roll d.settings.roll) (σ := w.slate) d.maxAttempts_pos clean)
  have foreseen : (d.answer now (.preview 1) w.slate).1 =
      (Forecast.foreseen d.settings.roll now 1 w.ledger.counters[key]?).map .entries := rfl
  rw [issued] at issue
  rw [foreseen] at preview
  refine ⟨_, _, w₁, w₂, preview, issue, ?_, fun r r' hr hr' => ?_⟩
  · rw [exists_error_iff, exists_error_iff, not_iff_not, exists_map_iff, exists_map_iff,
      Forecast.foreseen_ok_iff htop hle, RollCycle.draft_ok_iff hle rfl]
    exact (c.isForetold_iff _).symm
  · obtain ⟨es, forecast, rfl⟩ := map_eq_ok_iff.mp hr
    obtain ⟨id, draft, rfl⟩ := map_eq_ok_iff.mp hr'
    obtain ⟨e, rfl, rfl⟩ := d.foreseen_eq_draft forecast draft
    exact ⟨e, rfl, rfl⟩

end Desk

/-- A world on 14 March 2025 in which the counter of the day says this much. -/
def World.saying (sequence : UInt64) (mark : Mark) : World where
  ledger :=
    { counters := ({} : Std.ExtTreeMap String Counter).insert "250314"
        ⟨"250314", sequence, mark, ⟨1741942800, 0, 0⟩⟩ }
  clock := fun _ => ⟨1741942800, 0, 0⟩

theorem World.quiet_saying (sequence : UInt64) (mark : Mark) (key : String) :
    (World.saying sequence mark).Quiet ⟨1741942800, 0, 0⟩ key :=
  ⟨⟨fun _ => rfl, fun _ => rfl, rfl⟩, fun l hl => by cases hl⟩

theorem World.clean_saying (sequence : UInt64) (mark : Mark) (field id : String) :
    ¬ (World.saying sequence mark).ledger.IsRecorded field id := by
  simp [saying, Ledger.IsRecorded]

namespace Desk

/-- At the last sequence of the last digit both give the first roll number of the day. -/
theorem preview_fails_iff_wraps : ∃ e : Forecast.Entry,
    ((plain.serve (.preview 1)).run (.saying 99 (.digit 9))).1 = .finished (.ok (.entries [e])) ∧
      ((plain.serve (.issue .rollNumber)).run (.saying 99 (.digit 9))).1 =
        .finished (.ok (.id e.id)) := by
  obtain ⟨forecast, issued, w₁, w₂, preview, issue, agree, same⟩ :=
    plain.preview_fails_iff (World.quiet_saying 99 (.digit 9) _) (World.clean_saying _ _ _)
  have first : ((plain.serve (.preview 1)).run (.saying 99 (.digit 9))).1 =
      .finished (.ok (.entries [⟨"250314-0-01", "250314", 1, 0, 1⟩])) := by cbv
  rw [preview] at first ⊢
  obtain rfl := Run.finished.inj first
  cases issued with
  | error error =>
    obtain ⟨_, none⟩ := (agree.mpr ⟨9, rfl, by decide⟩).mpr ⟨error, rfl⟩
    cases none
  | ok id =>
    obtain ⟨e, one, rfl⟩ := same _ _ rfl rfl
    exact ⟨e, congrArg (fun r => Run.finished (Except.ok r)) one, congrArg Prod.fst issue⟩

/-- **Forecasts that mislead.** From a record without a digit and from one with the last sequence
there can be, a forecast is made and an issue fails. From one with a digit of two figures that is
about to advance, an issue succeeds and a forecast fails. -/
theorem preview_misleads :
    (∃ es e, ((plain.serve (.preview 1)).run (.saying 5 .plain)).1 = .finished (.ok es) ∧
      ((plain.serve (.issue .rollNumber)).run (.saying 5 .plain)).1 = .finished (.error e)) ∧
    (∃ es e, ((plain.serve (.preview 1)).run (.saying 18446744073709551615 (.digit 0))).1 =
        .finished (.ok es) ∧
      ((plain.serve (.issue .rollNumber)).run (.saying 18446744073709551615 (.digit 0))).1 =
        .finished (.error e)) ∧
    ∃ e id, ((plain.serve (.preview 1)).run (.saying 99 (.digit 10))).1 = .finished (.error e) ∧
      ((plain.serve (.issue .rollNumber)).run (.saying 99 (.digit 10))).1 = .finished (.ok id) := by
  refine ⟨⟨.entries [⟨"250314-0-06", "250314", 6, 0, 1⟩], .invalid (.noDigit "250314"), ?_, ?_⟩,
    ⟨.entries [⟨"250314-1-01", "250314", 1, 1, 1⟩], .ledger (.backend (.overflowed "250314")),
      ?_, ?_⟩, ⟨.invalid (.startDigit 10), .id "250314-1-01", ?_, ?_⟩⟩
  all_goals cbv

end Desk

end Docket
