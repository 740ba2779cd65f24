import Docket.Proofs.Desk.Answers
import Docket.Proofs.Desk.Apart

/-!
# Kinds do not interfere

Requests of different kinds share one ledger and one stream of random words, and yet nothing can be
told of one kind from the answers to another, as long as the keys differ.

* **`Desk.runs_filter`**: requests whose traces the others do not see can be left out;
* **`Desk.kinds_do_not_interfere`**: requests of a kind can be left out, neighbours of different
  kinds swapped, and forecasts put in anywhere.
-/

namespace Docket

/-- What happens at a desk. -/
inductive Move where
  | ask (request : Request)
  /-- The clock is set, and stands until it is set again. -/
  | clock (time : Time)
deriving DecidableEq, Repr

namespace Move

def time? : Move → Option Time
  | .clock time => some time
  | .ask _ => none

/-- What the clock shows, at first and later. -/
def times (now : Time) (moves : List Move) : List Time := now :: moves.filterMap time?

def stays (keep : Request → Bool) : Move → Bool
  | .ask request => keep request
  | .clock _ => true

@[simp] theorem stays_ask (keep : Request → Bool) (request : Request) :
    (ask request).stays keep = keep request := rfl

end Move

/-- Whether a request only looks at what is to come. -/
def Request.isForecast : Request → Bool
  | .preview _ | .dryRun _ => true
  | _ => false

/-- What comes of requests made one after another, and the world in the end. -/
def Desk.runs (d : Desk) : List Move → World → List (Request × Run (Except Error Response)) × World
  | [], w => ([], w)
  | .clock time :: moves, w => d.runs moves { w with clock := fun _ => time }
  | .ask request :: moves, w =>
    let done := (d.serve request).run w
    let rest := d.runs moves done.2
    ((request, done.1) :: rest.1, rest.2)

variable {d : Desk} {w v u : World} {now time : Time} {moves : List Move} {K : String → Prop}
  {D : Prop}

/-! ## Twins -/

/-- Two idle worlds whose slates agree on the counters under some keys, on the records, and perhaps
on how many random words are drawn. -/
structure World.Twin (w v : World) (now : Time) (K : String → Prop) (D : Prop) : Prop
    extends w.slate.Alike v.slate K D where
  idle : w.Idle now
  idle' : v.Idle now

theorem World.Idle.setClock (h : w.Idle now) (time : Time) :
    { w with clock := fun _ => time }.Idle time :=
  ⟨⟨h.faults, fun _ => rfl, h.goesOn⟩, h.free⟩

theorem World.Idle.twin (h : w.Idle now) (K : String → Prop) (D : Prop) : w.Twin w now K D :=
  ⟨.refl _ K D, h, h⟩

namespace World.Twin

theorem setClock (h : w.Twin v now K D) (time : Time) :
    { w with clock := fun _ => time }.Twin { v with clock := fun _ => time } time K D :=
  ⟨h.toAlike, h.idle.setClock time, h.idle'.setClock time⟩

/-- **A request that sees what twins share** gets the same answer in both, and they stay twins. -/
theorem serve (h : w.Twin v now K D) {request : Request}
    (key : K ((d.settings.series request.kind).key now)) (words : request.kind = .invoice → D) :
    ∃ r w' v', (d.serve request).run w = (.finished r, w') ∧
      (d.serve request).run v = (.finished r, v') ∧ w'.Twin v' now K D := by
  obtain ⟨w', run, idle, slate⟩ := d.serve_idle h.idle request
  obtain ⟨v', run', idle', slate'⟩ := d.serve_idle h.idle' request
  obtain ⟨same, alike⟩ := (d.local_answer now request).same key words h.toAlike
  exact ⟨_, w', v', run, same ▸ run', slate ▸ slate' ▸ alike, idle, idle'⟩

/-- A request whose traces twins do not share leaves them twins. -/
theorem serve_left (h : w.Twin v now K D) {request : Request}
    (unseen : ∀ σ : Slate, σ.Alike (d.answer now request σ).2 K D) :
    ∃ r w', (d.serve request).run w = (.finished r, w') ∧ w'.Twin v now K D := by
  obtain ⟨w', run, idle, slate⟩ := d.serve_idle h.idle request
  exact ⟨_, w', run, slate ▸ (unseen w.slate).symm.trans h.toAlike, idle, h.idle'⟩

theorem snapshot_eq (h : w.Twin v now (fun _ => True) D) :
    v.ledger.snapshot = w.ledger.snapshot :=
  congrArg₂ Snapshot.mk (h.counters_eq fun _ => trivial) h.records

end World.Twin

/-! ## Runs -/

namespace Desk

variable (d : Desk)

theorem runs_append (moves later : List Move) (w : World) :
    d.runs (moves ++ later) w =
      ((d.runs moves w).1 ++ (d.runs later (d.runs moves w).2).1,
        (d.runs later (d.runs moves w).2).2) := by
  induction moves generalizing w with
  | nil => rfl
  | cons move moves ih =>
    cases move with
    | clock time => exact ih _
    | ask request => simp only [List.cons_append, runs, ih]

theorem runs_idle (idle : w.Idle now) (moves : List Move) :
    (∀ x ∈ (d.runs moves w).1, ∃ answer, x.2 = .finished answer) ∧
      ∃ time ∈ Move.times now moves, (d.runs moves w).2.Idle time := by
  induction moves generalizing w now with
  | nil => exact ⟨List.forall_mem_nil _, now, List.mem_singleton_self now, idle⟩
  | cons move moves ih =>
    cases move with
    | clock time =>
      obtain ⟨all, last, shown, idle'⟩ := ih (idle.setClock time)
      exact ⟨all, last, List.mem_cons_of_mem now shown, idle'⟩
    | ask request =>
      obtain ⟨w', run, idle', -⟩ := d.serve_idle idle request
      rw [runs, run]
      obtain ⟨all, last⟩ := ih idle'
      exact ⟨List.forall_mem_cons.mpr ⟨⟨_, rfl⟩, all⟩, last⟩

/-- **Requests whose traces the others do not see can be left out.** -/
theorem runs_filter (keep : Request → Bool) (moves : List Move) (twin : w.Twin v now K D)
    (kept : ∀ time ∈ Move.times now moves, ∀ request, keep request →
      K ((d.settings.series request.kind).key time) ∧ (request.kind = .invoice → D))
    (dropped : ∀ time ∈ Move.times now moves, ∀ request, ¬ keep request →
      ∀ σ : Slate, σ.Alike (d.answer time request σ).2 K D) :
    (d.runs (moves.filter (·.stays keep)) v).1 = (d.runs moves w).1.filter (keep ·.1) ∧
      ∃ time, (d.runs moves w).2.Twin (d.runs (moves.filter (·.stays keep)) v).2 time K D := by
  induction moves generalizing w v now with
  | nil => exact ⟨rfl, now, twin⟩
  | cons move moves ih =>
    cases move with
    | clock time =>
      exact ih (twin.setClock time) (fun t shown => kept t (List.mem_cons_of_mem now shown))
        fun t shown => dropped t (List.mem_cons_of_mem now shown)
    | ask request =>
      have shown : now ∈ Move.times now (.ask request :: moves) := List.mem_cons_self
      by_cases h : keep request
      · obtain ⟨key, words⟩ := kept now shown request h
        obtain ⟨r, w', v', run, run', twin'⟩ := twin.serve key words
        obtain ⟨answers, rest⟩ := ih twin' kept dropped
        simp only [List.filter_cons, Move.stays_ask, h, runs, run, run', answers, ↓reduceIte,
          true_and]
        exact rest
      · obtain ⟨r, w', run, twin'⟩ := twin.serve_left (dropped now shown request h)
        obtain ⟨answers, rest⟩ := ih twin' kept dropped
        simp only [List.filter_cons, Move.stays_ask, h, runs, run, answers, ↓reduceIte, true_and,
          Bool.false_eq_true]
        exact rest

theorem runs_congr (moves : List Move) (twin : w.Twin v now (fun _ => True) True) :
    (d.runs moves v).1 = (d.runs moves w).1 ∧
      (d.runs moves v).2.ledger.snapshot = (d.runs moves w).2.ledger.snapshot := by
  have all : moves.filter (·.stays fun _ => true) = moves :=
    List.filter_eq_self.mpr fun move _ => by cases move <;> rfl
  obtain ⟨answers, time, twin'⟩ := d.runs_filter (fun _ => true) moves twin
    (fun _ _ _ _ => ⟨trivial, fun _ => trivial⟩) fun _ _ _ no => absurd rfl no
  rw [all] at answers twin'
  exact ⟨answers.trans (List.filter_eq_self.mpr fun _ _ => rfl), twin'.snapshot_eq⟩

/-- **Two requests of different kinds** get the same answers in either order, and leave the same. -/
theorem runs_swapped (idle : w.Idle now) {a b : Request} (kinds : a.kind ≠ b.kind)
    (keys : (d.settings.series a.kind).key now ≠ (d.settings.series b.kind).key now) :
    ∃ ra rb u v, (∀ later, d.runs (.ask a :: .ask b :: later) w =
        ((a, ra) :: (b, rb) :: (d.runs later u).1, (d.runs later u).2)) ∧
      (∀ later, d.runs (.ask b :: .ask a :: later) w =
        ((b, rb) :: (a, ra) :: (d.runs later v).1, (d.runs later v).2)) ∧
      u.Twin v now (fun _ => True) True := by
  obtain ⟨wa, runA, idleA, slateA⟩ := d.serve_idle idle a
  obtain ⟨wb, runB, idleB, slateB⟩ := d.serve_idle idle b
  obtain ⟨u, runAB, idleAB, slateAB⟩ := d.serve_idle idleA b
  obtain ⟨v, runBA, idleBA, slateBA⟩ := d.serve_idle idleB a
  have one : a.kind = .invoice → ¬ b.kind = .invoice := fun ha hb => kinds (ha.trans hb.symm)
  obtain ⟨sameA, sameB, alike⟩ :=
    (d.local_answer now a).comm (d.local_answer now b) keys one w.slate
  rw [slateA] at runAB slateAB
  rw [slateB] at runBA slateBA
  rw [sameB] at runAB
  rw [sameA] at runBA
  refine ⟨.finished (d.answer now a w.slate).1, .finished (d.answer now b w.slate).1, u, v,
    fun later => ?_, fun later => ?_, slateAB ▸ slateBA ▸ alike, idleAB, idleBA⟩
  · simp only [runs, runA, runAB]
  · simp only [runs, runB, runBA]

/-! ## Kinds -/

/-- The counters of all kinds have different keys at a time. -/
def KeysDiffer (d : Desk) (time : Time) : Prop :=
  (CounterKind.all.map fun kind => (d.settings.series kind).key time).Nodup

variable {d}

theorem key_ne {kind other : CounterKind} {t t' : Time} (differ : d.KeysDiffer t)
    (differ' : d.KeysDiffer t') (ne : kind ≠ other) :
    (d.settings.series kind).key t ≠ (d.settings.series other).key t' :=
  mt (kind_eq_of_key_eq ((d.nodup_keys_iff t t).mp differ) ((d.nodup_keys_iff t' t').mp differ')) ne

/-- **Requests of one kind can be left out**: the others get the same answers, and all counters but
those of the kind are left the same. -/
theorem runs_without (idle : w.Idle now) (differ : ∀ time ∈ Move.times now moves, d.KeysDiffer time)
    (kind : CounterKind) :
    let rest := d.runs (moves.filter (·.stays (·.kind ≠ kind))) w
    rest.1 = (d.runs moves w).1.filter (·.1.kind ≠ kind) ∧
      rest.2.ledger.records = (d.runs moves w).2.ledger.records ∧
      ∀ key, (∀ time ∈ Move.times now moves, (d.settings.series kind).key time ≠ key) →
        rest.2.ledger.counters[key]? = (d.runs moves w).2.ledger.counters[key]? := by
  intro rest
  let others key := ∀ time ∈ Move.times now moves, (d.settings.series kind).key time ≠ key
  have kept time (shown : time ∈ Move.times now moves) (request : Request)
      (keep : decide (request.kind ≠ kind) = true) :
      others ((d.settings.series request.kind).key time) ∧
        (request.kind = .invoice → kind ≠ .invoice) := by
    have ne : request.kind ≠ kind := of_decide_eq_true keep
    exact ⟨fun t shown' => key_ne (differ t shown') (differ time shown) ne.symm,
      fun invoice same => ne (invoice.trans same.symm)⟩
  have dropped time (shown : time ∈ Move.times now moves) (request : Request)
      (drop : ¬ decide (request.kind ≠ kind) = true) (σ : Slate) :
      σ.Alike (d.answer time request σ).2 others (kind ≠ .invoice) := by
    obtain rfl : request.kind = kind := by simpa using drop
    exact ((d.local_answer time request).rest σ).mono
      (fun key other same => other time shown same.symm) id
  obtain ⟨answers, time, twin⟩ := d.runs_filter (·.kind ≠ kind) moves (idle.twin _ _) kept dropped
  exact ⟨answers, twin.records, twin.counters⟩

/-- **Neighbours of different kinds can be swapped.** -/
theorem runs_swap (idle : w.Idle now) {before after : List Move} {a b : Request}
    (differ : ∀ time ∈ Move.times now before, d.KeysDiffer time) (ne : a.kind ≠ b.kind) :
    ∃ ra rb later,
      (d.runs (before ++ .ask a :: .ask b :: after) w).1 =
        (d.runs before w).1 ++ (a, ra) :: (b, rb) :: later ∧
      (d.runs (before ++ .ask b :: .ask a :: after) w).1 =
        (d.runs before w).1 ++ (b, rb) :: (a, ra) :: later ∧
      (d.runs (before ++ .ask b :: .ask a :: after) w).2.ledger.snapshot =
        (d.runs (before ++ .ask a :: .ask b :: after) w).2.ledger.snapshot := by
  obtain ⟨-, time, shown, idle'⟩ := d.runs_idle idle before
  obtain ⟨ra, rb, u, v, first, swapped, twin⟩ :=
    d.runs_swapped idle' ne (key_ne (differ time shown) (differ time shown) ne)
  obtain ⟨answers, snapshot⟩ := d.runs_congr after twin
  refine ⟨ra, rb, (d.runs after u).1, ?_, ?_, ?_⟩
  · rw [runs_append, first]
  · rw [runs_append, swapped, answers]
  · rw [runs_append, runs_append, first, swapped]
    exact snapshot

/-- **A forecast can be put in anywhere.** -/
theorem runs_forecast (idle : w.Idle now) {before after : List Move} {forecast : Request}
    (only : forecast.isForecast) :
    ∃ r later, (d.runs (before ++ after) w).1 = (d.runs before w).1 ++ later ∧
      (d.runs (before ++ .ask forecast :: after) w).1 =
        (d.runs before w).1 ++ (forecast, r) :: later ∧
      (d.runs (before ++ .ask forecast :: after) w).2.ledger.snapshot =
        (d.runs (before ++ after) w).2.ledger.snapshot := by
  obtain ⟨-, time, shown, idle'⟩ := d.runs_idle idle before
  have unseen (σ : Slate) : σ.Alike (d.answer time forecast σ).2 (fun _ => True) True := by
    cases forecast with
    | preview | dryRun => exact .refl σ _ _
    | _ => cases only
  obtain ⟨r, u, run, twin⟩ := (idle'.twin _ _).serve_left unseen
  obtain ⟨answers, snapshot⟩ := d.runs_congr after twin
  refine ⟨.finished r, (d.runs after (d.runs before w).2).1, ?_, ?_, ?_⟩
  · rw [runs_append]
  · rw [runs_append, runs, run, answers]
  · rw [runs_append, runs_append, runs, run]
    exact snapshot.symm

/-- **Kinds do not interfere.** In an idle world all requests come to an end. As long as the keys
differ, those of one kind can be left out: the others get the same answers, and their counters are
left the same. Neighbours of different kinds can be swapped. A forecast can be put in or left out
anywhere. -/
theorem kinds_do_not_interfere (idle : w.Idle now)
    (differ : ∀ time ∈ Move.times now moves, d.KeysDiffer time) :
    let full := d.runs moves w
    (∀ x ∈ full.1, ∃ answer, x.2 = .finished answer) ∧
    (∀ kind,
      let rest := d.runs (moves.filter (·.stays (·.kind ≠ kind))) w
      rest.1 = full.1.filter (·.1.kind ≠ kind) ∧
      rest.2.ledger.records = full.2.ledger.records ∧
      (∀ key, (∀ time ∈ Move.times now moves, (d.settings.series kind).key time ≠ key) →
        rest.2.ledger.counters[key]? = full.2.ledger.counters[key]?) ∧
      ∀ other ≠ kind, ∀ time ∈ Move.times now moves,
        rest.2.ledger.counters[(d.settings.series other).key time]? =
          full.2.ledger.counters[(d.settings.series other).key time]?) ∧
    (∀ (before : List Move) (a b : Request) (after : List Move),
      moves = before ++ .ask a :: .ask b :: after → a.kind ≠ b.kind →
      let swapped := d.runs (before ++ .ask b :: .ask a :: after) w
      ∃ ra rb later,
        full.1 = (d.runs before w).1 ++ (a, ra) :: (b, rb) :: later ∧
        swapped.1 = (d.runs before w).1 ++ (b, rb) :: (a, ra) :: later ∧
        swapped.2.ledger.snapshot = full.2.ledger.snapshot) ∧
    ∀ (before : List Move) (forecast : Request) (after : List Move),
      moves = before ++ after → forecast.isForecast →
      let more := d.runs (before ++ .ask forecast :: after) w
      ∃ r later, full.1 = (d.runs before w).1 ++ later ∧
        more.1 = (d.runs before w).1 ++ (forecast, r) :: later ∧
        more.2.ledger.snapshot = full.2.ledger.snapshot := by
  intro full
  refine ⟨(d.runs_idle idle moves).1, ?_, ?_, ?_⟩
  · intro kind rest
    obtain ⟨answers, records, counters⟩ := runs_without idle differ kind
    refine ⟨answers, records, counters, fun other ne time shown => counters _ fun t shown' => ?_⟩
    exact key_ne (differ t shown') (differ time shown) ne.symm
  · rintro before a b after rfl ne swapped
    refine runs_swap idle (fun time shown => differ time ?_) ne
    rw [Move.times, List.filterMap_append]
    exact List.mem_append_left _ shown
  · rintro before forecast after rfl only more
    exact runs_forecast idle only

/-- A roll number, an invoice, a daily invoice and, on the next day, two roll numbers: without the
invoice, and with the invoices swapped. -/
theorem kinds_do_not_interfere_sample :
    let tomorrow : Time := ⟨1742029200, 0, 0⟩
    let before : List Move := [.ask (.issue .rollNumber)]
    let after : List Move := [.clock tomorrow, .ask (.reserve 2)]
    let invoice := Request.issue .invoice
    let daily := Request.issue .dailyInvoice
    let number := (Request.issue .rollNumber, Run.finished (.ok (.id "250314-0-02")))
    let numbers := (Request.reserve 2, Run.finished (.ok (.ids ["250315-0-01", "250315-0-02"])))
    ∃ a b : Run (Except Error Response),
      (plain.runs (before ++ .ask invoice :: .ask daily :: after) .sample).1 =
        [number, (invoice, a), (daily, b), numbers] ∧
      (plain.runs (before ++ .ask daily :: after) .sample).1 = [number, (daily, b), numbers] ∧
      (plain.runs (before ++ .ask daily :: .ask invoice :: after) .sample).1 =
        [number, (daily, b), (invoice, a), numbers] := by
  intro tomorrow before after invoice daily number numbers
  let moves := before ++ .ask invoice :: .ask daily :: after
  have idle : World.sample.Idle ⟨1741942800, 0, 0⟩ :=
    World.idle_ofSnapshot (s := World.sample.ledger.snapshot)
      ⟨fun _ => rfl, fun _ => rfl, rfl⟩ rfl
  have differ : ∀ time ∈ Move.times ⟨1741942800, 0, 0⟩ moves, plain.KeysDiffer time := by
    unfold KeysDiffer
    decide +kernel
  obtain ⟨-, without, swap, -⟩ := kinds_do_not_interfere idle differ
  obtain ⟨a, b, later, full, swapped, -⟩ := swap before invoice daily after rfl nofun
  have first : (plain.runs before .sample).1 = [number] := by cbv
  have last : later = [numbers] := by
    have rest : (plain.runs moves .sample).1.drop 3 = [numbers] := by cbv
    rw [full, first] at rest
    exact rest
  rw [first, last] at full swapped
  have left : moves.filter (·.stays (·.kind ≠ .invoice)) = before ++ .ask daily :: after := rfl
  have answers := (without .invoice).1
  rw [left, full] at answers
  exact ⟨a, b, full, answers, swapped⟩

end Desk

end Docket
