import Docket.Proofs.Issue.Drafts

/-!
# What a batch draws

* `Series.issueRest_ok`, **`Series.issueBatch_ok`**: a batch is what is not on record of drafts made
  one after another.
-/

namespace Docket

/-- A calm world in which a transaction is open and somebody else holds a key. -/
structure World.Barred (w : World) (now : Time) (t : Tx) (key : String) : Prop
    extends w.Calm now where
  isOpen : w.ledger.IsOpen t
  held : ∃ u, w.ledger.locks.Holds u key ∧ u ≠ t.serial

theorem World.Calm.start {w : World} {now : Time} (h : w.Calm now) (key : String) :
    ∃ w', w.start = (.answer (.ok w.ledger.start.1), w') ∧ w'.slate = w.slate ∧
      (w'.Ready now w.ledger.start.1 key ∨ w'.Barred now w.ledger.start.1 key) := by
  obtain ⟨pass, calm⟩ := h.submit .start .start
  simp only [World.start, pass]
  refine ⟨_, rfl, rfl, ?_⟩
  by_cases mine : w.ledger.locks.Within w.ledger.start.1.serial key
  · exact .inl ⟨calm.withLedger _, ⟨rfl, List.mem_cons_self⟩, mine⟩
  · simp only [LockTable.Within, Classical.not_forall] at mine
    obtain ⟨u, held, ne⟩ := mine
    exact .inr ⟨calm.withLedger _, ⟨rfl, List.mem_cons_self⟩, u, held, ne⟩

/-! ## While somebody else holds the key -/

namespace World.Barred

variable {w : World} {now : Time} {t : Tx} {key : String}

theorem later (h : w.Barred now t key) (n : Nat) : { w with elapsed := n }.Barred now t key :=
  ⟨⟨h.faults, h.clock, h.goesOn⟩, h.isOpen, h.held⟩

theorem logPause (h : w.Barred now t key) (span : Span) : (w.logPause span).Barred now t key :=
  ⟨⟨h.faults, h.clock, h.goesOn⟩, h.isOpen, h.held⟩

theorem takeWords (h : w.Barred now t key) (n : Nat) : (w.takeWords n).2.Barred now t key :=
  ⟨⟨h.faults, h.clock, h.goesOn⟩, h.isOpen, h.held⟩

theorem touch (h : w.Barred now t key) {c : Touch} (hc : c.key? = some key) :
    ∃ w', w.touch t c = (.waits, w') ∧ w'.Barred now t key := by
  obtain ⟨pass, calm⟩ := h.toCalm.submit c.method (.touch c)
  obtain ⟨u, held, ne⟩ := h.held
  refine ⟨_, ?_, calm, h.isOpen, u, held, ne⟩
  simp only [World.touch, World.submitTouch, pass, World.reach]
  rw [show (w.submit c.method (.touch c)).2.ledger = w.ledger from rfl,
    Ledger.touch_of_isOpen h.isOpen, Ledger.lockFor?, hc]
  simp only [held.take?_eq_none ne]
  rfl

theorem pause (h : w.Barred now t key) {α : Type} {span : Span} {p : Plan α} {result : α}
    {w' : World} (rest : ∀ w, w.Barred now t key → p.run w ≠ (.finished result, w')) :
    (Plan.pause span p).run w ≠ (.finished result, w') := by
  rw [Plan.run]
  split
  · exact rest _ (h.logPause span)
  · split
    · intro run
      cases run
    · exact rest _ ((h.logPause span).later _)

end World.Barred

namespace Series

variable {s : Series} {r : RetrySettings} {w w' : World} {now : Time} {t : Tx} {left : Nat}
  {id : String} {ids acc : List String} {last : Option LedgerError}

theorem abort_ne_ok {e : Error} :
    (Plan.finish t .abort fun _ => .done (Except.error (α := List String) e)).run w ≠
      (.finished (.ok ids), w') := by
  intro run
  rw [Plan.run] at run
  split at run <;> cases run

theorem candidate_barred (h : w.Barred now t (s.key now)) :
    ∃ w', s.candidate.run t w = (.stuck, w') ∧ w'.Barred now t (s.key now) := by
  obtain ⟨c, next, hc, asks⟩ := s.candidate_asks now (w.takeWords s.seedWords).1
  obtain ⟨w', touch, barred⟩ := (h.takeWords s.seedWords).touch hc
  refine ⟨w', ?_, barred⟩
  rw [candidate_eq, Work.run, h.toCalm.now_eq, allocate_eq, Work.bind, Work.run, asks, Work.run,
    touch]

theorem attemptIn_barred (h : w.Barred now t (s.key now)) :
    ∃ w', w'.Barred now t (s.key now) ∧ ((s.attemptIn r t).run w = (.hung, w') ∨
      (s.attemptIn r t).run w = (.finished (.transient (.timeout r.attemptTimeout)), w')) := by
  obtain ⟨w₁, stuck, barred⟩ := candidate_barred h
  rw [attemptIn, Plan.run, stuck]
  dsimp only
  split
  · exact ⟨w₁, barred, .inl rfl⟩
  · exact ⟨_, barred.later _, .inr rfl⟩

/-- **While somebody else holds the key, nothing is issued.** -/
theorem retrying_barred (h : w.Barred now t (s.key now)) :
    (retrying r (s.attemptIn r t) left last).run w ≠ (.finished (.ok id), w') := by
  induction left generalizing w last with
  | zero => nofun
  | succ left ih =>
    obtain ⟨w₁, barred, run | run⟩ := attemptIn_barred (r := r) h
    · rw [retrying_of_hung h.toCalm.isCancelled run]
      intro hung
      cases hung
    · rw [retrying_of_transient h.toCalm.isCancelled run]
      split
      · exact ih barred
      · exact barred.pause fun _ => ih

theorem issueRest_barred (h : w.Barred now t (s.key now)) :
    (s.issueRest r t (left + 1) acc).run w ≠ (.finished (.ok ids), w') := by
  intro run
  rw [issueRest, Plan.run_bind] at run
  split at run
  · next result w₁ issue =>
    cases result with
    | error e => exact abort_ne_ok run
    | ok id => exact retrying_barred h issue
  · cases run

/-! ## In an open transaction -/

/-- **An attempt in an open transaction** comes to what its work says on the slate. -/
theorem attemptIn_run (ready : w.Ready now t (s.key now)) :
    ∃ w', (s.attemptIn r t).run w = (.finished (.ofResult (s.candidate.eval now w.slate).1), w') ∧
      w'.Ready now t (s.key now) ∧ w'.slate = (s.candidate.eval now w.slate).2 ∧
      w.Spent w' 0 0 ∧
      (w.ledger.locks.Unawaited (s.key now) → w'.ledger.locks.Unawaited (s.key now)) := by
  obtain ⟨w', run, ready', spent, slate, un⟩ := Work.run_eq tidy_candidate ready
  refine ⟨w', ?_, ready', slate, spent, un⟩
  simp only [attemptIn, Plan.run, run]

theorem settles_attemptIn :
    s.Settles now (s.attemptIn r t) 0 0 fun w => w.Ready now t (s.key now) :=
  .of_run (fun _ ready => ready.toCalm) fun w ready => by
    obtain ⟨w', run, ready', slate, spent, -⟩ := attemptIn_run (r := r) ready
    refine ⟨w', run, ready', slate, ?_⟩
    split <;> exact spent

/-! ## The batch -/

/-- **What is issued in a transaction** is what is not on record of drafts made one after another,
the last of which is not. -/
theorem issueRest_ok (ready : w.Ready now t (s.key now))
    (run : (s.issueRest r t left acc).run w = (.finished (.ok ids), w')) :
    ids.length = acc.length + left ∧ ∃ ds τ, s.Drafts now ds w.slate τ ∧
      ids = acc.reverse ++ ds.filter (¬ w.ledger.IsRecorded s.field ·) ∧
      ∀ id, ds.getLast? = some id → ¬ w.ledger.IsRecorded s.field id := by
  induction left generalizing w acc with
  | zero =>
    obtain ⟨w₁, finish, -⟩ := ready.finish .commit
    simp only [issueRest, Plan.run, finish] at run
    cases run
    exact ⟨List.length_reverse, [], _, .nil _, by simp, by simp⟩
  | succ left ih =>
    rw [issueRest, Plan.run_bind] at run
    split at run
    · next result w₁ issue =>
      cases result with
      | error e => exact absurd run abort_ne_ok
      | ok id =>
        obtain ⟨ready₁, clear, ds₁, taken, drafts⟩ := settles_attemptIn.retrying_ok ready issue
        obtain ⟨length, ds, τ, rest, he, last⟩ := ih ready₁ run
        have same : w₁.slate.records = w.slate.records := drafts.records
        simp only [World.isRecorded_iff same] at he last
        refine ⟨by rw [length, List.length_cons]; omega, _, τ, drafts.append rest, ?_, ?_⟩
        · -- What was skipped is taken, so of these drafts only the last one is left.
          have none : ds₁.filter (¬ w.ledger.IsRecorded s.field ·) = [] :=
            List.filter_eq_nil_iff.mpr fun d hd => by simpa using taken d hd
          rw [he, List.filter_append, List.filter_append, none]
          simp [clear]
        · intro id' hid
          rw [List.getLast?_append, List.getLast?_concat] at hid
          cases hds : ds.getLast? with
          | none =>
            rw [hds] at hid
            cases hid
            exact clear
          | some d =>
            rw [hds] at hid
            cases hid
            exact last _ hds
    · cases run

/-- **A batch** is what is not on record of drafts made one after another, the last of which is
not. -/
theorem issueBatch_ok {n : Nat} (calm : w.Calm now)
    (run : (s.issueBatch r n).run w = (.finished (.ok ids), w')) :
    ids.length = n ∧ ∃ ds τ, s.Drafts now ds w.slate τ ∧
      ids = ds.filter (¬ w.ledger.IsRecorded s.field ·) ∧
      ∀ id, ds.getLast? = some id → ¬ w.ledger.IsRecorded s.field id := by
  unfold issueBatch at run
  split at run
  · next zero =>
    cases run
    exact ⟨zero.symm, [], _, .nil _, rfl, by simp⟩
  · next pos =>
    obtain ⟨left, rfl⟩ := Nat.exists_eq_succ_of_ne_zero pos
    -- Either the key is to be had from the start, or the first identifier is never issued.
    obtain ⟨w₁, start, slate, ready | barred⟩ := calm.start (s.key now)
    all_goals
      simp only [Plan.run, calm.isCancelled] at run
      rw [if_neg Bool.false_ne_true] at run
      simp only [Plan.run, start] at run
    · obtain ⟨length, ds, τ, drafts, he, last⟩ := issueRest_ok ready run
      have same : w₁.slate.records = w.slate.records := congrArg Slate.records slate
      simp only [World.isRecorded_iff same] at he last
      rw [slate] at drafts
      exact ⟨length.trans (Nat.zero_add _), ds, τ, drafts, he, last⟩
    · exact absurd run (issueRest_barred barred)

end Series

end Docket
