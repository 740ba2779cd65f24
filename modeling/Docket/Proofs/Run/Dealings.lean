import Docket.Proofs.Ledger.Touches
import Docket.Proofs.Run.Course

/-!
# Opening and ending transactions

What a run does to transactions is counted twice: by the ledger, and by the calls in the log. Only
calls that open or end a transaction change either count.

* `World.Balance`, **`World.Dealt`**: the ledger's count since some world, and with it the calls that
  opened and ended transactions; `Dealt.start` and `Dealt.finish` are the ways in which it moves.
-/

namespace Docket

/-! ## The two counts -/

def Call.Deals : Call → Prop
  | .start | .finish _ => True
  | _ => False

instance : DecidablePred Call.Deals := fun c => by cases c <;> unfold Call.Deals <;> infer_instance

namespace World

/-- Opening and ending a transaction may fail but always comes back, and nobody gives up. -/
structure Attended (w : World) : Prop where
  patient : w.horizon = none
  returns : ∀ m ∈ [Method.start, .commit, .abort], .stall ∉ w.faults m

/-- The second world comes after the first. Of the transactions opened in between, those in `held`
are still open, and so many have ended with a commit and an abort. -/
structure Balance (w v : World) (held : List Nat) (commits aborts : Nat) : Prop where
  name : v.ledger.name = w.ledger.name
  begun : v.ledger.begun = w.ledger.begun + (held.length + commits + aborts)
  active : v.ledger.active = held ++ w.ledger.active
  commits : v.ledger.commits = w.ledger.commits + commits
  aborts : v.ledger.aborts = w.ledger.aborts + aborts

/-- The same, with the calls `deals` that opened and ended transactions, latest first. -/
structure Dealt (w v : World) (deals : List Call) (held : List Nat) (commits aborts : Nat) :
    Prop extends w.Balance v held commits aborts where
  calls : ∃ calls, v.log = calls ++ w.log ∧ calls.filter (·.Deals) = deals
  script : ∀ m, v.faults m <:+ w.faults m
  horizon : v.horizon = w.horizon

variable {w v u : World} {t : Tx} {deals deals' : List Call} {held held' : List Nat}
  {commits commits' aborts aborts' : Nat}

theorem Dealt.refl (w : World) : w.Dealt w [] [] 0 0 :=
  ⟨⟨rfl, rfl, rfl, rfl, rfl⟩, ⟨[], rfl, rfl⟩, fun _ => List.suffix_rfl, rfl⟩

theorem Dealt.trans (h : w.Dealt v deals held commits aborts)
    (h' : v.Dealt u deals' held' commits' aborts') :
    w.Dealt u (deals' ++ deals) (held' ++ held) (commits + commits') (aborts + aborts') where
  name := h'.name.trans h.name
  begun := by rw [h'.begun, h.begun, List.length_append]; omega
  active := by rw [h'.active, h.active, List.append_assoc]
  commits := by rw [h'.commits, h.commits, Nat.add_assoc]
  aborts := by rw [h'.aborts, h.aborts, Nat.add_assoc]
  calls := by
    obtain ⟨calls, log, rfl⟩ := h.calls
    obtain ⟨calls', log', rfl⟩ := h'.calls
    exact ⟨calls' ++ calls, by rw [log', log, List.append_assoc], List.filter_append ..⟩
  script m := (h'.script m).trans (h.script m)
  horizon := h'.horizon.trans h.horizon

theorem Dealt.then (h : w.Dealt v deals held commits aborts) (h' : v.Dealt u [] [] 0 0) :
    w.Dealt u deals held commits aborts := h.trans h'

theorem Dealt.attended (h : w.Dealt v deals held commits aborts) (attended : w.Attended) :
    v.Attended :=
  ⟨h.horizon.trans attended.patient, fun m hm stall =>
    attended.returns m hm ((h.script m).subset stall)⟩

theorem Dealt.not_beyond (h : w.Dealt v deals held commits aborts) {time : Nat}
    (late : v.beyond time) : w.horizon ≠ none := by
  intro patient
  rw [beyond, h.horizon, patient] at late
  cases late

/-- What was open before or not opened at all can be ended again without any effect. -/
theorem Balance.finish_of_not_isOpen (h : w.Balance v [] commits aborts)
    (closed : ¬ w.ledger.IsOpen t) (how : Ending) : v.ledger.finish t how = v.ledger := by
  have same : v.ledger.IsOpen t ↔ w.ledger.IsOpen t := by
    rw [Ledger.IsOpen, Ledger.IsOpen, h.name, h.active, List.nil_append]
  rw [Ledger.finish, if_neg (mt same.mp closed)]

theorem Dealt.filter_calls (h : w.Dealt v deals held commits aborts) {calls : List Call}
    (log : v.log = calls ++ w.log) : calls.filter (·.Deals) = deals := by
  obtain ⟨calls', log', rfl⟩ := h.calls
  rw [List.append_cancel_right (log.symm.trans log')]

theorem Dealt.head?_calls {deal : Call} (h : w.Dealt v (deal :: deals) held commits aborts)
    {calls : List Call} (log : v.log = calls ++ w.log) {c : Call} (last : v.log.head? = some c) :
    calls.head? = some c := by
  cases calls with
  | nil => cases h.filter_calls log
  | cons call calls => rwa [log] at last

/-! ## What does not count -/

theorem dealt_submit (w : World) (m : Method) (c : Call) :
    w.Dealt (w.submit m c).2 (if c.Deals then [c] else []) [] 0 0 where
  toBalance := ⟨rfl, rfl, rfl, rfl, rfl⟩
  calls := ⟨[c], rfl, by split <;> simp [*]⟩
  script m' := w.submit_script m m' c
  horizon := rfl

theorem Dealt.same (ledger : v.ledger = w.ledger) (log : v.log = w.log)
    (script : v.faults = w.faults) (horizon : v.horizon = w.horizon) : w.Dealt v [] [] 0 0 where
  toBalance := by constructor <;> simp [ledger]
  calls := ⟨[], log, rfl⟩
  script m := script ▸ List.suffix_rfl
  horizon := horizon

theorem dealt_takeWords (w : World) (n : Nat) : w.Dealt (w.takeWords n).2 [] [] 0 0 :=
  .same rfl rfl rfl rfl

theorem dealt_note (w : World) (a : Allocation) : w.Dealt (w.note a) [] [] 0 0 :=
  .same rfl rfl rfl rfl

theorem dealt_elapsed (w : World) (time : Nat) : w.Dealt { w with elapsed := time } [] [] 0 0 :=
  .same rfl rfl rfl rfl

theorem dealt_logPause (w : World) (span : Span) : w.Dealt (w.logPause span) [] [] 0 0 :=
  ⟨⟨rfl, rfl, rfl, rfl, rfl⟩, ⟨[.pause span], rfl, rfl⟩, fun _ => List.suffix_rfl, rfl⟩

theorem dealt_reach (w : World) (t : Tx) (c : Touch) : w.Dealt (w.reach t c).2 [] [] 0 0 := by
  unfold reach
  by_cases ht : w.ledger.IsOpen t
  · rw [Ledger.touch_of_isOpen ht]
    cases w.ledger.lockFor? t c with
    | none => exact .refl w
    | some locks =>
      exact ⟨⟨rfl, rfl, rfl, rfl, rfl⟩, ⟨[], rfl, rfl⟩, fun _ => List.suffix_rfl, rfl⟩
  · rw [Ledger.touch_of_not_isOpen ht]
    exact .refl w

theorem dealt_touch (w : World) (t : Tx) (c : Touch) : w.Dealt (w.touch t c).2 [] [] 0 0 := by
  have submitted : w.Dealt (w.submitTouch c).2 [] [] 0 0 := w.dealt_submit c.method (.touch c)
  simp only [touch]
  split
  · next e => rwa [e] at submitted
  · next e =>
    rw [e] at submitted
    exact submitted.then (dealt_reach _ t c)

/-! ## What counts -/

theorem dealt_start (w : World) :
    w.Dealt { (w.submit .start .start).2 with ledger := w.ledger.start.2 } [.start]
      [w.ledger.begun] 0 0 :=
  { w.dealt_submit .start .start with
    name := rfl, begun := rfl, active := rfl, commits := rfl, aborts := rfl }

theorem Dealt.submit (h : w.Dealt v deals held commits aborts) (m : Method) {c : Call}
    (deal : c.Deals) : w.Dealt (v.submit m c).2 (c :: deals) held commits aborts := by
  have := h.trans (v.dealt_submit m c)
  rwa [if_pos deal] at this

/-- The transaction that is open is ended, in the way `how'` for a call that says `how`. -/
theorem Dealt.finish (h : w.Dealt v deals [t.serial] commits aborts)
    (ht : t.ledger = w.ledger.name) (how how' : Ending) :
    w.Dealt { (v.submit how.method (.finish how)).2 with ledger := v.ledger.finish t how' }
      (.finish how :: deals) [] (if how' = .commit then commits + 1 else commits)
      (if how' = .commit then aborts else aborts + 1) := by
  have submitted := h.submit how.method (c := .finish how) trivial
  have isOpen : v.ledger.IsOpen t := ⟨ht.trans h.name.symm, by rw [h.active]; simp⟩
  have := h.begun
  have := h.active
  refine ⟨?_, submitted.calls, submitted.script, submitted.horizon⟩
  simp only [Ledger.finish, if_pos isOpen]
  cases how' <;> constructor <;> simp [h.name, h.commits, h.aborts, *] <;> omega

end World

/-! ## What is steady -/

/-- Whether a condition on worlds depends only on what opening and ending transactions changes. -/
def World.Steady (S : World → Prop) : Prop := ∀ ⦃v u : World⦄, S v → v.Dealt u [] [] 0 0 → S u

namespace World.Steady

variable {S : World → Prop}

theorem dealt (w : World) (deals : List Call) (held : List Nat) (commits aborts : Nat) :
    Steady fun v => w.Dealt v deals held commits aborts := fun _ _ h h' => h.then h'

theorem work {α : Type} (steady : Steady S) (t : Tx) (work : Work α) {w : World} (h : S w) :
    work.Ensures t S (fun _ => S) w := by
  induction work generalizing w with
  | done | fail => exact ⟨h, h⟩
  | now next ih => exact ih _ h
  | draw n next ih => exact ⟨h, ih _ (steady h (w.dealt_takeWords n))⟩
  | note a next ih => exact ⟨h, ih (steady h (w.dealt_note a))⟩
  | touch c next ih =>
    have after := steady h (w.dealt_touch t c)
    simp only [Work.Ensures]
    refine ⟨h, ?_⟩
    generalize w.touch t c = dealt at after
    obtain ⟨reply, v⟩ := dealt
    cases reply with
    | answer r =>
      cases r with
      | ok a => exact ih a after
      | error _ => exact ⟨after, after⟩
    | waits | never => exact ⟨after, after⟩

theorem attempt {α : Type} {K : World → Prop} {X : Prop} {P : α → World → Prop} {t : Tx}
    {limit : Span} {work : Work Candidate} {next : Except Error Candidate → Plan α} {w : World}
    (steady : Steady S) (le : ∀ v, S v → K v) (late : ∀ v time, S v → v.beyond time → X)
    (h : S w) (rest : ∀ r v, S v → (next r).Ensures K X P v) :
    (Plan.attempt t limit work next).Ensures K X P w := by
  simp only [Plan.Ensures]
  refine (steady.work t work h).mono le ?_
  rintro (r | _) v after -
  · exact rest r v after
  · dsimp only
    split
    · next e => exact late v _ after e
    · exact rest _ _ (steady after (v.dealt_elapsed _))

end World.Steady

end Docket
