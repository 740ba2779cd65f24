import Docket.Ledger.Snapshot
import Docket.Proofs.Forecast.Reserves
import Docket.Proofs.Run.Confined
import Docket.Proofs.Run.Local

/-!
# What a desk answers

Where nothing disturbs it, what a desk answers is told by the slate alone. It depends on the counter
of the request's kind, on the records and, for invoices, on the random words, and so does what is
left.

* `Desk.answer`, **`Desk.serve_run`**: the answer to a request;
* **`Desk.local_answer`**: it sees the counter of the request's kind only;
* `World.Idle`, **`Desk.serve_idle`**: a world in which all keys are free, and stays so.
-/

namespace Docket

variable {now : Time} {w : World}

/-! ## Series -/

namespace Series

variable {s : Series} {r : RetrySettings} {draws : Prop}

/-- Whether a series draws random words. -/
def Draws (s : Series) : Prop := s.seedWords ≠ 0 ∨ ∃ a, s.formatWords a ≠ 0

theorem drawsIf_freshen (key : String) (seed : Mark) : (s.freshen key seed now).DrawsIf draws := by
  unfold freshen
  split
  · intro record
    cases record with
    | none => trivial
    | some c =>
      show (ite _ _ _ : Work Bool).DrawsIf draws
      split
      · exact fun _ => trivial
      · trivial
  · trivial

theorem drawsIf_settle (rotated : Bool) (c : Counter) :
    (s.settle now rotated c).DrawsIf draws := by
  unfold settle advance
  split
  · split
    · split
      · trivial
      · exact fun _ => trivial
    · trivial
  · trivial

theorem drawsIf_allocate : (s.allocate now).DrawsIf s.Draws := by
  rw [allocate_eq]
  refine ⟨Decidable.or_iff_not_imp_left.mpr .inl, fun words => ?_⟩
  exact (drawsIf_freshen _ _).bind fun rotated c => drawsIf_settle rotated c

theorem drawsIf_write (a : Allocation) : (s.write a).DrawsIf s.Draws := by
  refine ⟨Decidable.or_iff_not_imp_left.mpr fun h => .inr ⟨a, h⟩, fun words => ?_⟩
  show (Work.lift (s.format a words)).DrawsIf s.Draws
  cases s.format a words <;> trivial

/-- **A draft draws random words** only if its series does. -/
theorem drawsIf_draft : s.draft.DrawsIf s.Draws :=
  fun _ => drawsIf_allocate.bind drawsIf_write

theorem local_draft : Slate.Local (s.draft.eval now) (s.key now) s.Draws :=
  Work.local_eval tidy_draft drawsIf_draft

/-- **Picking** sees the counter of the series only. -/
theorem local_pick (left : Nat) : Slate.Local (s.pick r now left) (s.key now) s.Draws := by
  induction left with
  | zero => exact .pure _
  | succ left ih =>
    let settled (records : Std.ExtTreeMap String (Std.ExtTreeSet String)) :
        Except Error String → Slate → Except Error String × Slate
      | .error e, σ => (.error e, σ)
      | .ok id, σ => if id ∈ records[s.field]?.getD ∅ then s.pick r now left σ else (.ok id, σ)
    have settles records result : Slate.Local (settled records result) (s.key now) s.Draws := by
      cases result with
      | error e => exact .pure _
      | ok id =>
        show Slate.Local (fun σ => ite _ _ _) _ _
        split
        · exact ih
        · exact .pure _
    have same : s.pick r now (left + 1) = fun σ =>
        settled σ.records (s.draft.eval now σ).1 (s.draft.eval now σ).2 := by
      funext σ
      rw [pick]
      rcases s.draft.eval now σ with ⟨_ | _, _⟩ <;> rfl
    exact same ▸ (Slate.Local.read fun _ records => records).bind fun records =>
      local_draft.bind (settles records)

theorem local_pickMany (n : Nat) : Slate.Local (s.pickMany r now n) (s.key now) s.Draws := by
  induction n with
  | zero => exact .pure _
  | succ n ih =>
    let more : Except Error String → Slate → Except Error (List String) × Slate
      | .error e, σ => (.error e, σ)
      | .ok id, σ => ((s.pickMany r now n σ).1.map (id :: ·), (s.pickMany r now n σ).2)
    have goesOn result : Slate.Local (more result) (s.key now) s.Draws := by
      cases result with
      | error e => exact .pure _
      | ok id => exact ih.map (Except.map (id :: ·))
    have same : s.pickMany r now (n + 1) = fun σ =>
        more (s.pick r now r.maxAttempts σ).1 (s.pick r now r.maxAttempts σ).2 := by
      funext σ
      rw [pickMany]
      rcases s.pick r now r.maxAttempts σ with ⟨_ | _, _⟩ <;> rfl
    exact same ▸ (local_pick _).bind goesOn

theorem issueBatch_picks (quiet : w.Quiet now (s.key now)) (n : Nat) :
    ∃ w', (s.issueBatch r n).run w = (.finished (s.pickMany r now n w.slate).1, w') ∧
      w'.Quiet now (s.key now) ∧ w'.slate = (s.pickMany r now n w.slate).2 := by
  by_cases none : n = 0
  · subst none
    exact ⟨w, rfl, quiet, rfl⟩
  · obtain ⟨w', run, quiet', slate, -⟩ := issueBatch_run (r := r) quiet none
    exact ⟨w', run, quiet', slate⟩

end Series

/-! ## Requests -/

namespace Desk

variable (d : Desk)

/-- What a desk answers where nothing disturbs it, and what it leaves. -/
def answer (now : Time) : Request → Slate → Except Error Response × Slate
  | .issue kind, σ =>
    let picked := (d.settings.series kind).pick d.settings.retry now d.settings.retry.maxAttempts σ
    (picked.1.map .id, picked.2)
  | .reserve count, σ =>
    let picked := (Series.roll d.settings.roll).pickMany d.settings.retry now count σ
    (picked.1.map .ids, picked.2)
  | .invoices count, σ =>
    if count = 0 then (.error (.invalid .emptyInvoiceBatch), σ)
    else
      let picked := (Series.invoice d.settings.invoice).pickMany d.settings.retry now count σ
      (picked.1.map .ids, picked.2)
  | .preview count, σ =>
    let record := σ.counters[(Series.roll d.settings.roll).key now]?
    ((Forecast.foreseen d.settings.roll now count record).map .entries, σ)
  | .dryRun count, σ =>
    let record := σ.counters[(Series.roll d.settings.roll).key now]?
    let known := (σ.ledger.IsRecorded d.settings.roll.field ·)
    (((Forecast.foreseen d.settings.roll now count record).map (Forecast.reportOf known)).map
      .report, σ)
  | .reset kind, σ =>
    let key := (d.settings.series kind).key now
    (.ok (.removed (σ.counters.contains key)), { σ with counters := σ.counters.erase key })

/-- **What comes of a request** in a world in which nobody wants the key is what the desk answers on
the slate. -/
theorem serve_run (request : Request)
    (quiet : w.Quiet now ((d.settings.series request.kind).key now)) :
    ∃ w', (d.serve request).run w = (.finished (d.answer now request w.slate).1, w') ∧
      w'.Quiet now ((d.settings.series request.kind).key now) ∧
      w'.slate = (d.answer now request w.slate).2 := by
  cases request with
  | issue kind =>
    obtain ⟨w', k, run, quiet', slate, -⟩ :=
      Series.settles_attemptAlone.retrying_run (s := d.settings.series kind)
        (r := d.settings.retry) quiet d.settings.retry.maxAttempts
    refine ⟨w', ?_, quiet', slate⟩
    rw [serve, Plan.run_bind, Series.issueOne, run]
    rfl
  | reserve count =>
    obtain ⟨w', run, quiet', slate⟩ := Series.issueBatch_picks (r := d.settings.retry) quiet count
    refine ⟨w', ?_, quiet', slate⟩
    rw [serve, Plan.run_bind]
    exact run ▸ rfl
  | invoices count =>
    simp only [serve, answer]
    split
    · exact ⟨w, rfl, quiet, rfl⟩
    · obtain ⟨w', run, quiet', slate⟩ :=
        Series.issueBatch_picks (r := d.settings.retry) quiet count
      refine ⟨w', ?_, quiet', slate⟩
      rw [Plan.run_bind]
      exact run ▸ rfl
  | preview count =>
    obtain ⟨w', run, ledger, calm, slate⟩ :=
      Forecast.preview_run (l := d.settings.roll) quiet.toCalm count
    refine ⟨w', ?_, ⟨calm, ledger ▸ quiet.free⟩, slate⟩
    rw [serve, Plan.run_bind, run]
    rfl
  | dryRun count =>
    obtain ⟨w', run, ledger, calm, slate⟩ :=
      Forecast.dryRun_reports (l := d.settings.roll) quiet.toCalm count
    refine ⟨w', ?_, ⟨calm, ledger ▸ quiet.free⟩, slate⟩
    rw [serve, Plan.run_bind, run]
    rfl
  | reset kind =>
    obtain ⟨w', query, calm, ledger, slate⟩ :=
      quiet.toCalm.query (.remove ((d.settings.series kind).key now))
    refine ⟨w', ?_, ⟨calm, ledger ▸ quiet.free⟩, slate⟩
    rw [serve, Plan.run, quiet.toCalm.now_eq, Plan.run, query]
    rfl

theorem kind_eq_invoice_of_draws (kind : CounterKind) (h : (d.settings.series kind).Draws) :
    kind = .invoice := by
  cases kind with
  | invoice => rfl
  | rollNumber | dailyInvoice => exact absurd h (not_or.mpr ⟨not_not.mpr rfl, fun ⟨_, h⟩ => h rfl⟩)

/-- **An answer** sees and changes the counter of the request's kind only, and draws random words
only for invoices. -/
theorem local_answer (now : Time) (request : Request) :
    Slate.Local (d.answer now request) ((d.settings.series request.kind).key now)
      (request.kind = .invoice) := by
  cases request with
  | issue kind =>
    exact ((Series.local_pick _).mono (d.kind_eq_invoice_of_draws kind)).map
      (Except.map Response.id)
  | reserve count =>
    exact ((Series.local_pickMany count).mono (d.kind_eq_invoice_of_draws .rollNumber)).map
      (Except.map Response.ids)
  | invoices count =>
    by_cases none : count = 0
    · subst none
      exact .pure _
    · have answered : d.answer now (.invoices count) = fun σ =>
          let picked := (Series.invoice d.settings.invoice).pickMany d.settings.retry now count σ
          (picked.1.map Response.ids, picked.2) := funext fun σ => if_neg none
      exact answered ▸ ((Series.local_pickMany count).mono fun _ => rfl).map
        (Except.map Response.ids)
  | preview count =>
    exact .read fun record _ =>
      (Forecast.foreseen d.settings.roll now count record).map Response.entries
  | dryRun count =>
    exact .read fun record records =>
      ((Forecast.foreseen d.settings.roll now count record).map
        (Forecast.reportOf fun id => decide (id ∈ records[d.settings.roll.field]?.getD ∅))).map
          Response.report
  | reset kind => exact Slate.Local.erase.map fun removed => Except.ok (Response.removed removed)

end Desk

/-! ## Idle worlds -/

/-- A calm world in which nobody holds or awaits any key. -/
structure World.Idle (w : World) (now : Time) : Prop extends w.Calm now where
  free : ∀ key, w.ledger.locks.Free key

theorem World.idle_ofSnapshot {name : Nat} {s : Snapshot} (calm : w.Calm now)
    (ledger : w.ledger = .ofSnapshot name s) : w.Idle now :=
  ⟨calm, fun _ l hl => by rw [ledger] at hl; cases hl⟩

/-- **What comes of a request in an idle world** is what the desk answers on the slate, and the
world stays idle. -/
theorem Desk.serve_idle (d : Desk) (idle : w.Idle now) (request : Request) :
    ∃ w', (d.serve request).run w = (.finished (d.answer now request w.slate).1, w') ∧
      w'.Idle now ∧ w'.slate = (d.answer now request w.slate).2 := by
  obtain ⟨w', run, quiet, slate⟩ := d.serve_run request ⟨idle.toCalm, idle.free _⟩
  have framed := Plan.run_framed
    (Ledger.LeavesFree.frame _) (d.confined_serve request now) idle.clock
  rw [run] at framed
  refine ⟨w', run, ⟨quiet.toCalm, fun key => ?_⟩, slate⟩
  by_cases own : key = (d.settings.series request.kind).key now
  · exact own ▸ quiet.free
  · exact framed.ledger key own (idle.free key)

end Docket
