import Docket.Proofs.Issue.Shape
import Docket.Proofs.Ledger.Orderly
import Docket.Proofs.Run.Beside

/-!
# Issues that wait in vain

While somebody else holds the key of a series, an issue waits for it until all its attempts have run
out of time. It leaves everything as it was, also the queue that it stood in; and transactions that
hold other keys make no difference to it.

* **`Series.waiting_consumes_nothing`**: what such an issue comes to and leaves.
-/

namespace Docket

variable {α : Type}

/-! ## Attempts in vain -/

/-- Attempts each of which fails with `e` for now, where `I` holds of the world before each of them
and of how many are left. -/
structure Futile (attempt : Plan Attempt) (e : LedgerError) (S : World → Prop)
    (I : Nat → World → Prop) : Prop where
  kept : ∀ {left w}, I left w → S w
  goesOn : ∀ {left w}, I left w → w.isCancelled = false
  patient : ∀ {left w}, I left w → w.horizon = none
  once : ∀ {left w}, I (left + 1) w →
    attempt.Ensures S False (fun x v => x = .transient e ∧ I left v) w
  /-- A pause may take any time, also none. -/
  paused : ∀ {left w} (span : Span) (time : Nat), I left w →
    I left { w.logPause span with elapsed := time }

theorem Futile.retrying {attempt : Plan Attempt} {e : LedgerError} {S : World → Prop}
    {I : Nat → World → Prop} (h : Futile attempt e S I) (r : RetrySettings) {left : Nat}
    {last : Option LedgerError} {w : World} (start : I left w) :
    (Docket.retrying r attempt left last).Ensures S False (fun x v =>
      x = .error (.exhausted r.maxAttempts (if left = 0 then last else some e)) ∧ I 0 v) w := by
  induction left generalizing last w with
  | zero => exact ⟨h.kept start, rfl, start⟩
  | succ left ih =>
    have early {v : World} (hv : I left v) (time : Nat) : v.beyond time = false := by
      rw [World.beyond, h.patient hv]
      rfl
    simp only [Docket.retrying, Plan.Ensures, h.goesOn start]
    refine (h.once start).bind ?_
    rintro _ v - ⟨rfl, hv⟩
    have more {u : World} (hu : I left u) :
        (Docket.retrying r attempt left (some e)).Ensures S False (fun x v =>
          x = .error (.exhausted r.maxAttempts (some e)) ∧ I 0 v) u := by
      simpa only [ite_self] using @ih (some e) u hu
    simp only [if_neg (Nat.succ_ne_zero left)]
    split
    · exact more hv
    · simp only [Plan.Ensures]
      refine ⟨h.kept hv, ?_⟩
      rw [early hv]
      split
      · exact more (h.paused _ v.elapsed hv)
      · exact more (h.paused _ _ hv)

/-! ## Ledgers and worlds that nothing is done to -/

namespace Ledger

/-- The ledger after `k` more transactions that came to nothing. -/
def inVain (l : Ledger) (k : Nat) : Ledger :=
  { l with begun := l.begun + k, aborts := l.aborts + k }

theorem abort_start {l : Ledger} (new : ∀ key, ¬ l.locks.Holds l.begun key) :
    l.start.2.finish l.start.1 .abort = l.inVain 1 := by
  have isOpen : l.start.2.IsOpen l.start.1 := ⟨rfl, List.mem_cons_self⟩
  have same : l.start.2.locks.release l.start.1.serial = l.locks :=
    LockTable.release_of_not_holds new
  rw [Ledger.finish, if_pos isOpen, same]
  simp only [start, inVain, List.erase_cons_head]

/-- The second ledger has the counters and records of the first one. Whoever is open in the first is
so in the second, and holds the same keys at least. -/
structure Untouched (l l' : Ledger) : Prop where
  counters : l'.counters = l.counters
  records : l'.records = l.records
  active : ∀ u ∈ l.active, u ∈ l'.active
  holds : ∀ u key, l.locks.Holds u key → l'.locks.Holds u key

theorem untouched_inVain (l : Ledger) (k : Nat) : l.Untouched (l.inVain k) :=
  ⟨rfl, rfl, fun _ => id, fun _ _ => id⟩

theorem Untouched.start {l l' : Ledger} (h : l.Untouched l') : l.Untouched l'.start.2 :=
  ⟨h.counters, h.records, fun u hu => List.mem_cons_of_mem _ (h.active u hu), h.holds⟩

theorem Untouched.joining {l l' : Ledger} (h : l.Untouched l') (t : Tx) (c : Touch) :
    l.Untouched (l'.joining t c) := by
  unfold Ledger.joining
  split
  · exact ⟨h.counters, h.records, h.active, fun u key hu => (h.holds u key hu).join⟩
  · exact h

end Ledger

/-- A world like `w`, only later, in which nothing disturbs what is done, with a ledger `l`. -/
structure World.Undisturbed (w : World) (l : Ledger) (v : World) : Prop where
  ledger : v.ledger = l
  notes : v.notes = w.notes
  clock : v.clock = w.clock
  faults : ∀ m, v.faults m = []
  goesOn : v.stopAfter = none
  patient : v.horizon = none

namespace World.Undisturbed

variable {w v : World} {l l' : Ledger}

theorem submit (h : w.Undisturbed l v) (m : Method) (c : Call) :
    (v.submit m c).1 = .pass ∧ w.Undisturbed l (v.submit m c).2 := by
  refine ⟨by rw [World.submit, h.faults]; rfl,
    h.ledger, h.notes, h.clock, fun m' => ?_, h.goesOn, h.patient⟩
  simp only [World.submit, h.faults]
  split <;> rfl

theorem withLedger (h : w.Undisturbed l v) (l' : Ledger) :
    w.Undisturbed l' { v with ledger := l' } :=
  ⟨rfl, h.notes, h.clock, h.faults, h.goesOn, h.patient⟩

theorem untouched {l₀ : Ledger} (h : w.Undisturbed l v) (kept : l₀.Untouched l) :
    l₀.Untouched v.ledger := by
  rw [h.ledger]
  exact kept

theorem not_mem_faults (h : w.Undisturbed l v) (m : Method) (fault : Fault) :
    fault ∉ v.faults m := by
  rw [h.faults]
  exact List.not_mem_nil

theorem elapsed (h : w.Undisturbed l v) (time : Nat) : w.Undisturbed l { v with elapsed := time } :=
  ⟨h.ledger, h.notes, h.clock, h.faults, h.goesOn, h.patient⟩

theorem isCancelled (h : w.Undisturbed l v) : v.isCancelled = false := by
  rw [World.isCancelled, h.goesOn]
  rfl

theorem pause (h : w.Undisturbed l v) (span : Span) (time : Nat) :
    w.Undisturbed l { v.logPause span with elapsed := time } :=
  ⟨h.ledger, h.notes, h.clock, h.faults, h.goesOn, h.patient⟩

theorem beyond_eq_false (h : w.Undisturbed l v) (time : Nat) : v.beyond time = false := by
  rw [World.beyond, h.patient]
  rfl

theorem touch (h : w.Undisturbed l v) {t : Tx} (isOpen : l.IsOpen t) {c : Touch} {key : String}
    {u : Nat} (hk : c.key? = some key) (held : l.locks.Holds u key) (ne : u ≠ t.serial) :
    ∃ v', v.touch t c = (.waits, v') ∧ w.Undisturbed l v' := by
  obtain ⟨pass, later⟩ := h.submit c.method (.touch c)
  refine ⟨_, ?_, later⟩
  simp only [World.touch, World.submitTouch, pass, World.reach]
  rw [later.ledger, Ledger.touch_of_isOpen isOpen, Ledger.lockFor?, hk]
  simp only [held.take?_eq_none ne]
  rfl

section Ensures

variable {S : World → Prop} {X : Prop} {Q : α → World → Prop}

theorem start_ensures {next : Except LedgerError Tx → Plan α} (h : w.Undisturbed l v) (kept : S v)
    (rest : ∀ u, w.Undisturbed l.start.2 u → (next (.ok l.start.1)).Ensures S X Q u) :
    (Plan.start next).Ensures S X Q v := by
  refine .start kept ?_ (fun e he => absurd he (h.not_mem_faults _ _))
    fun he => absurd he (h.not_mem_faults _ _)
  rw [h.ledger]
  exact rest _ ((h.submit .start .start).2.withLedger _)

theorem finish_ensures {t : Tx} {how : Ending} {next : Except LedgerError Unit → Plan α}
    (h : w.Undisturbed l v) (kept : S v)
    (rest : ∀ u, w.Undisturbed (l.finish t how) u → (next (.ok ())).Ensures S X Q u) :
    (Plan.finish t how next).Ensures S X Q v := by
  refine .finish kept ?_ (fun e he => absurd he (h.not_mem_faults _ _))
    fun he => absurd he (h.not_mem_faults _ _)
  rw [h.ledger]
  exact rest _ ((h.submit how.method (.finish how)).2.withLedger _)

end Ensures

end World.Undisturbed

namespace Series

variable {s : Series} {w v : World} {l : Ledger} {t : Tx}

theorem candidate_waits (h : w.Undisturbed l v) (isOpen : l.IsOpen t)
    (held : ∀ k, ∃ u, l.locks.Holds u (s.key (w.clock k)) ∧ u ≠ t.serial) :
    s.candidate.Ensures t (w.Undisturbed l) (fun x u => x = .stuck ∧ w.Undisturbed l u) v := by
  rw [candidate_eq]
  simp only [Work.Ensures, allocate_eq, Work.bind]
  refine ⟨h, ?_⟩
  obtain ⟨c, next, hk, asks⟩ := candidate_asks s v.now (v.takeWords s.seedWords).1
  obtain ⟨u, hu, ne⟩ := held v.log.length
  have drawn : w.Undisturbed l (v.takeWords s.seedWords).2 :=
    ⟨h.ledger, h.notes, h.clock, h.faults, h.goesOn, h.patient⟩
  have key : s.key v.now = s.key (w.clock v.log.length) := by rw [World.now, h.clock]
  obtain ⟨v', waits, later⟩ := drawn.touch isOpen (hk.trans (congrArg some key)) hu ne
  simp only [asks, Work.Ensures, waits]
  exact ⟨drawn, later, trivial, later⟩

theorem attempt_waits {S : World → Prop} {Q : α → World → Prop} {limit : Span}
    {next : Except Error Candidate → Plan α} (h : w.Undisturbed l v) (isOpen : l.IsOpen t)
    (held : ∀ k, ∃ u, l.locks.Holds u (s.key (w.clock k)) ∧ u ≠ t.serial)
    (kept : ∀ u, w.Undisturbed l u → S u)
    (rest : ∀ u, w.Undisturbed l u →
      (next (.error (.ledger (.timeout limit)))).Ensures S False Q u) :
    (Plan.attempt t limit s.candidate next).Ensures S False Q v := by
  simp only [Plan.Ensures]
  refine (candidate_waits h isOpen held).mono kept ?_
  rintro _ u - ⟨rfl, later⟩
  simp only [later.beyond_eq_false]
  exact rest _ (later.elapsed _)

/-! ## Whole issues -/

section Whole

variable {r : RetrySettings} {k : Nat}
  (new : ∀ u key, w.ledger.locks.Holds u key → u < w.ledger.begun)
  (held : ∀ k, ∃ u, w.ledger.locks.Holds u (s.key (w.clock k)))

include new held

theorem attemptAlone_waits (h : w.Undisturbed (w.ledger.inVain k) v) :
    (s.attemptAlone r).Ensures (w.ledger.Untouched ·.ledger) False (fun x v =>
      x = .transient (.timeout r.attemptTimeout) ∧
        w.Undisturbed (w.ledger.inVain (k + 1)) v) v := by
  have before := w.ledger.untouched_inVain k
  have newer {u : Nat} {key : String} (hu : w.ledger.locks.Holds u key) :
      u ≠ w.ledger.begun + k := Nat.ne_of_lt (Nat.lt_add_right k (new u key hu))
  rw [attemptAlone_eq]
  refine h.start_ensures (h.untouched before) fun u hu => ?_
  refine attempt_waits hu ⟨rfl, List.mem_cons_self⟩ (fun i => ?_)
    (fun v hv => hv.untouched before.start) fun v hv => ?_
  · obtain ⟨u, hu⟩ := held i
    exact ⟨u, hu, newer hu⟩
  · refine hv.finish_ensures (hv.untouched before.start) fun u hu => ?_
    rw [Ledger.abort_start (l := w.ledger.inVain k) fun key mine => newer mine rfl] at hu
    exact ⟨hu.untouched (w.ledger.untouched_inVain (k + 1)), rfl, hu⟩

/-- **An issue of one identifier** runs out of time at each attempt. -/
theorem issueOne_waits (tries : 0 < r.maxAttempts) (h : w.Undisturbed w.ledger w) :
    (s.issueOne r).Ensures (w.ledger.Untouched ·.ledger) False (fun x v =>
      x = .error (.exhausted r.maxAttempts (some (.timeout r.attemptTimeout))) ∧
        w.Undisturbed (w.ledger.inVain r.maxAttempts) v) w := by
  -- So many attempts have come to nothing as are not left.
  let I (left : Nat) (v : World) :=
    ∃ k, k + left = r.maxAttempts ∧ w.Undisturbed (w.ledger.inVain k) v
  have futile : Futile (s.attemptAlone r) (.timeout r.attemptTimeout)
      (w.ledger.Untouched ·.ledger) I := {
    kept := fun ⟨k, _, hv⟩ => hv.untouched (w.ledger.untouched_inVain k)
    goesOn := fun ⟨_, _, hv⟩ => hv.isCancelled
    patient := fun ⟨_, _, hv⟩ => hv.patient
    once := fun ⟨k, count, hv⟩ => (attemptAlone_waits new held hv).mono fun x u ⟨hx, hu⟩ =>
      ⟨hx, k + 1, by omega, hu⟩
    paused := fun span time ⟨k, count, hv⟩ => ⟨k, count, hv.pause span time⟩ }
  refine (futile.retrying r ⟨0, Nat.zero_add _, h⟩).mono fun x v ⟨hx, k, count, hv⟩ => ?_
  rw [if_neg (Nat.ne_of_gt tries)] at hx
  obtain rfl : k = r.maxAttempts := count
  exact ⟨hx, hv⟩

/-- **An issue of several identifiers** does so with the first of them. -/
theorem issueBatch_waits {n : Nat} (tries : 0 < r.maxAttempts) (pos : 0 < n)
    (h : w.Undisturbed w.ledger w) :
    (s.issueBatch r n).Ensures (w.ledger.Untouched ·.ledger) False (fun x v =>
      x = .error (.exhausted r.maxAttempts (some (.timeout r.attemptTimeout))) ∧
        w.Undisturbed (w.ledger.inVain 1) v) w := by
  have newer {u : Nat} {key : String} (hu : w.ledger.locks.Holds u key) :
      u ≠ w.ledger.begun := Nat.ne_of_lt (new u key hu)
  have opened : w.ledger.Untouched w.ledger.start.2 := (w.ledger.untouched_inVain 0).start
  have attempt {v : World} (hv : w.Undisturbed w.ledger.start.2 v) :
      (s.attemptIn r w.ledger.start.1).Ensures (w.ledger.Untouched ·.ledger) False (fun x v =>
        x = .transient (.timeout r.attemptTimeout) ∧ w.Undisturbed w.ledger.start.2 v) v := by
    refine attempt_waits hv ⟨rfl, List.mem_cons_self⟩ (fun i => ?_)
      (fun u hu => hu.untouched opened) fun u hu => ⟨hu.untouched opened, rfl, hu⟩
    obtain ⟨u, hu⟩ := held i
    exact ⟨u, hu, newer hu⟩
  have futile : Futile (s.attemptIn r w.ledger.start.1) (.timeout r.attemptTimeout)
      (w.ledger.Untouched ·.ledger) (fun _ => w.Undisturbed w.ledger.start.2) := {
    kept := fun hv => hv.untouched opened
    goesOn := fun hv => hv.isCancelled
    patient := fun hv => hv.patient
    once := attempt
    paused := fun span time hv => hv.pause span time }
  obtain ⟨left, rfl⟩ := Nat.exists_eq_succ_of_ne_zero (Nat.ne_of_gt pos)
  simp only [issueBatch, if_neg (Nat.succ_ne_zero left), Plan.Ensures, h.isCancelled]
  refine h.start_ensures (h.untouched (w.ledger.untouched_inVain 0)) fun v hv => ?_
  refine (futile.retrying r hv).bind ?_
  rintro _ u - ⟨rfl, hu⟩
  refine hu.finish_ensures (hu.untouched opened) fun u hu => ?_
  rw [Ledger.abort_start fun key mine => newer mine rfl] at hu
  rw [if_neg (Nat.ne_of_gt tries)]
  exact ⟨hu.untouched (w.ledger.untouched_inVain 1), rfl, hu⟩

end Whole

end Series

/-! ## Who uses which transactions -/

theorem Plan.since_retrying {attempt : Plan Attempt} {n : Nat} (h : attempt.Since n)
    (r : RetrySettings) (left : Nat) (last : Option LedgerError) :
    (retrying r attempt left last).Since n := by
  induction left generalizing last with
  | zero => trivial
  | succ left ih =>
    intro stop
    cases stop with
    | true => trivial
    | false =>
      refine h.bind fun a => ?_
      cases a with
      | issued | fatal => trivial
      | collided => exact ih last
      | transient e =>
        dsimp only
        split
        · exact ih _
        · exact ih _

namespace Series

variable (s : Series) (r : RetrySettings) (n : Nat)

theorem since_issueOne : (s.issueOne r).Since n := by
  refine Plan.since_retrying ?_ r _ _
  rintro (e | t) opened
  · trivial
  · have recent := opened t rfl
    refine ⟨recent, ?_⟩
    rintro (e | ⟨id | id⟩)
    · exact ⟨recent, fun _ => trivial⟩
    · exact ⟨recent, by rintro (e | _) <;> trivial⟩
    · exact ⟨recent, fun _ => trivial⟩

theorem since_issueRest {t : Tx} (recent : n ≤ t.serial) (left : Nat) (ids : List String) :
    (s.issueRest r t left ids).Since n := by
  induction left generalizing ids with
  | zero => exact ⟨recent, by rintro (e | _) <;> trivial⟩
  | succ left ih =>
    have attempt : (s.attemptIn r t).Since n := ⟨recent, fun _ => trivial⟩
    refine (Plan.since_retrying attempt r _ _).bind ?_
    rintro (e | id)
    · exact ⟨recent, fun _ => trivial⟩
    · exact ih _

theorem since_issueBatch (count : Nat) : (s.issueBatch r count).Since n := by
  unfold issueBatch
  split
  · trivial
  · rintro (_ | _)
    · rintro (e | t) opened
      · trivial
      · exact s.since_issueRest r n (opened t rfl) count []
    · trivial

end Series

/-! ## Ledgers in order -/

namespace Ledger.Orderly

variable {l : Ledger} {name u : Nat} {waiting : Nat → Option Touch} {used : Nat → String → Prop}

theorem active_of_holds (h : l.Orderly name waiting used) {key : String}
    (held : l.locks.Holds u key) : u ∈ l.active := (h.holds_iff.mp held).1

theorem unqueued (h : l.Orderly name waiting used) : l.Unqueued l.begun := by
  refine ⟨Nat.le_refl _, fun key t mem => ?_⟩
  obtain ⟨c, waits, -⟩ := (h.serves key).queued t mem
  exact h.begun t (h.open_of_waiting t c waits).1

theorem beside (h : l.Orderly name waiting used) {keys : String → Prop} (isOpen : u ∈ l.active)
    (apart : ∀ key, keys key → ¬ l.locks.Holds u key) : l.Beside u l.begun keys := by
  refine ⟨h.unqueued, h.begun u isOpen, apart, fun key _ mem => ?_⟩
  cases hv : (l.locks.lock key).holder with
  | none =>
    rw [(h.serves key).idle hv] at mem
    cases mem
  | some v =>
    have held := LockTable.holds_iff_lock.mpr hv
    exact ⟨v, h.begun v (h.active_of_holds held), held⟩

end Ledger.Orderly

def World.scope (w : World) (s : Series) : Scope where
  times now := ∃ k, now = w.clock k
  keys key := ∃ k, key = s.key (w.clock k)
  errors _ := True

theorem World.scope_admits (w : World) (s : Series) : (w.scope s).Admits s where
  keys := by
    rintro now ⟨k, rfl⟩
    exact ⟨k, rfl⟩
  errors _ _ := trivial

/-! ## Waiting consumes nothing -/

/-- **Waiting consumes nothing.** Let the locks be in order. Where some transaction holds the
series' key, whatever the clock shows, an issue of one identifier and one of several run out of time
at each attempt, and all that is left of them is how many transactions were begun and aborted; at no
step do they touch a counter, a record or a transaction that was open before, or take a key from
one. And a transaction that does not hold the series' key makes no difference to an issue, whatever
happens to its calls. -/
theorem Series.waiting_consumes_nothing {s : Series} {r : RetrySettings} {w : World} {name : Nat}
    {waiting : Nat → Option Touch} {used : Nat → String → Prop}
    (orderly : w.ledger.Orderly name waiting used) :
    (0 < r.maxAttempts → (∀ m, w.faults m = []) → w.stopAfter = none → w.horizon = none →
      (∀ k, ∃ u, w.ledger.locks.Holds u (s.key (w.clock k))) →
      let e := Error.exhausted r.maxAttempts (some (.timeout r.attemptTimeout))
      (∃ v, (s.issueOne r).ComesTo w.ledger.Untouched w (.error e) v ∧
        v.ledger = w.ledger.inVain r.maxAttempts ∧ v.notes = w.notes) ∧
      ∀ n, 0 < n → ∃ v, (s.issueBatch r n).ComesTo w.ledger.Untouched w (.error e) v ∧
        v.ledger = w.ledger.inVain 1 ∧ v.notes = w.notes) ∧
    ∀ u ∈ w.ledger.active, (∀ k, ¬ w.ledger.locks.Holds u (s.key (w.clock k))) →
      (s.issueOne r).run (w.without u) =
        (((s.issueOne r).run w).1, ((s.issueOne r).run w).2.without u) ∧
      ∀ n, (s.issueBatch r n).run (w.without u) =
        (((s.issueBatch r n).run w).1, ((s.issueBatch r n).run w).2.without u) := by
  constructor
  · intro tries faults goesOn patient held e
    have here : w.Undisturbed w.ledger w := ⟨rfl, rfl, rfl, faults, goesOn, patient⟩
    have new : ∀ u key, w.ledger.locks.Holds u key → u < w.ledger.begun := fun u key hu =>
      orderly.begun u (orderly.active_of_holds hu)
    have queued : ∀ l t c, w.ledger.Untouched l → w.ledger.Untouched (l.joining t c) :=
      fun l t c h => h.joining t c
    constructor
    · obtain ⟨x, v, ⟨rfl, hv⟩, comes⟩ := (issueOne_waits new held tries here).comesTo queued
        (s.since_issueOne r _) orderly.unqueued
      exact ⟨v, comes, hv.ledger, hv.notes⟩
    · intro n pos
      obtain ⟨x, v, ⟨rfl, hv⟩, comes⟩ := (issueBatch_waits new held tries pos here).comesTo queued
        (s.since_issueBatch r _ n) orderly.unqueued
      exact ⟨v, comes, hv.ledger, hv.notes⟩
  · intro u isOpen apart
    have beside : w.Beside u w.ledger.begun (w.scope s) := by
      refine ⟨orderly.beside isOpen ?_, fun k => ⟨k, rfl⟩⟩
      rintro key ⟨k, rfl⟩
      exact apart k
    have admits := w.scope_admits s
    exact ⟨(Plan.run_without (within_issueOne admits) (s.since_issueOne r _) beside).1,
      fun n => (Plan.run_without (within_issueBatch admits n) (s.since_issueBatch r _ n) beside).1⟩

/-- A world in which transaction 0 holds the roll counter of the day. -/
def World.heldUp : World where
  ledger :=
    { locks := (∅ : LockTable).insert "250314" { holder := some 0 }, begun := 1, active := [0] }
  clock := fun _ => ⟨1741942800, 0, 0⟩

theorem World.lock_heldUp (key : String) : heldUp.ledger.locks.lock key =
    if "250314" = key then { holder := some 0 } else {} := by
  simp only [heldUp, LockTable.lock_insert]
  simp [LockTable.lock]

theorem World.holds_heldUp {u : Nat} {key : String} :
    heldUp.ledger.locks.Holds u key ↔ u = 0 ∧ "250314" = key := by
  rw [LockTable.holds_iff_lock, lock_heldUp]
  split
  · next e => simp [e, eq_comm]
  · next ne => simp [ne]

theorem World.orderly_heldUp :
    heldUp.ledger.Orderly 0 (fun _ => none) fun u key => u = 0 ∧ "250314" = key where
  name := rfl
  nodup := List.nodup_singleton 0
  begun := by simp [heldUp]
  earlier := by
    rintro u key ⟨rfl, -⟩
    exact Nat.one_pos
  open_of_waiting := nofun
  serves key := by
    have mem : ∀ u, u ∈ heldUp.ledger.active ↔ u = 0 := fun u => List.mem_singleton
    rw [lock_heldUp]
    split
    · next e =>
      exact (Lock.Serves.nobody.take id nofun).congr (fun u => by simp) fun u => by simp [e, mem]
    · next ne => exact Lock.Serves.nobody.congr (fun u => by simp) fun u => by simp [ne]

/-- While transaction 0 holds the roll counter, no roll number is issued, and invoices are issued as
if it were not there. -/
theorem Series.waiting_consumes_nothing_heldUp :
    (∃ v, ((Series.roll {}).issueOne {}).run World.heldUp =
        (.finished (.error (.exhausted 3 (some (.timeout (Span.ofMillis 5000))))), v) ∧
      v.ledger = World.heldUp.ledger.inVain 3) ∧
    ((Series.invoice {}).issueOne {}).run (World.heldUp.without 0) =
      ((((Series.invoice {}).issueOne {}).run World.heldUp).1,
        (((Series.invoice {}).issueOne {}).run World.heldUp).2.without 0) := by
  have roll : (Series.roll {}).key ⟨1741942800, 0, 0⟩ = "250314" := by decide
  have invoice : "250314" ≠ (Series.invoice {}).key ⟨1741942800, 0, 0⟩ := by decide
  have apart : ∀ k, ¬ World.heldUp.ledger.locks.Holds 0
      ((Series.invoice {}).key (World.heldUp.clock k)) := fun k held =>
    invoice (World.holds_heldUp.mp held).2
  obtain ⟨⟨v, comes, ledger, -⟩, -⟩ :=
    (Series.waiting_consumes_nothing (s := .roll {}) (r := {}) World.orderly_heldUp).1
      (by decide) (fun _ => rfl) rfl rfl fun k => ⟨0, World.holds_heldUp.mpr ⟨rfl, roll.symm⟩⟩
  exact ⟨⟨v, comes.run, ledger⟩,
    ((Series.waiting_consumes_nothing World.orderly_heldUp).2 0 (by decide) apart).1⟩

end Docket
