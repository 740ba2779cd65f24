import Docket.Proofs.Issue.Shape
import Docket.Proofs.Run.Dealings
import Mathlib

/-!
# Every transaction is ended once

Whatever fails or stalls on the way of an issue, each transaction that it opens is ended once,
before the next one is opened, and it ends with a commit only if something is issued.

* **`Series.issueOne_ends_each`**: one identifier, in transactions of its own or in a given one;
* **`Series.issueBatch_all_or_none`**: several identifiers in one transaction.
-/

namespace Docket

/-- The second world comes after the first. One of the transactions opened in between is still open
at most, and `budget` were asked for at most. -/
def World.Orderly (w : World) (budget : Nat) (v : World) : Prop :=
  ∃ deals held commits aborts, w.Dealt v deals held commits aborts ∧ held.length ≤ 1 ∧
    deals.count .start ≤ budget

theorem World.Dealt.orderly {w v : World} {deals : List Call} {held : List Nat}
    {commits aborts budget : Nat} (h : w.Dealt v deals held commits aborts)
    (single : held.length ≤ 1) (room : deals.count .start ≤ budget) : w.Orderly budget v :=
  ⟨deals, held, commits, aborts, h, single, room⟩

/-- The end of the transaction that is open is a commit that comes back, or it is dropped. -/
theorem World.Dealt.finish_ensures {α : Type} {w v : World} {deals : List Call} {t : Tx}
    {aborts budget : Nat} {how : Ending} {next : Except LedgerError Unit → Plan α}
    {P : α → World → Prop} (h : w.Dealt v deals [t.serial] 0 aborts)
    (mine : t.ledger = w.ledger.name) (room : deals.count .start ≤ budget)
    (committed : how = .commit → ∀ u, w.Dealt u (.finish .commit :: deals) [] 1 aborts →
      u.log.head? = some (.finish .commit) →
      (next (.ok ())).Ensures (w.Orderly budget) (¬ w.Attended) P u)
    (dropped : ∀ result u, (result = .ok () → how = .abort) →
      w.Dealt u (.finish how :: deals) [] 0 (aborts + 1) →
      (next result).Ensures (w.Orderly budget) (¬ w.Attended) P u) :
    (Plan.finish t how next).Ensures (w.Orderly budget) (¬ w.Attended) P v := by
  refine .finish (h.orderly (Nat.le_refl 1) room) ?_
    (fun e _ => dropped _ _ nofun (h.finish mine how .abort)) fun stall => ?_
  · cases how with
    | commit => exact committed rfl _ (h.finish mine .commit .commit) rfl
    | abort => exact dropped _ _ (fun _ => rfl) (h.finish mine .abort .abort)
  · refine ⟨(h.submit how.method (c := .finish how) trivial).orderly (Nat.le_refl 1)
      (by simpa using room), fun attended => ?_⟩
    exact (h.attended attended).returns _ (by cases how <;> simp [Ending.method]) stall

namespace Series

variable (s : Series) (r : RetrySettings) {w v : World} {t : Tx} {deals : List Call}
  {aborts budget : Nat} {X : Prop}

/-! ## In a given transaction -/

theorem issueIn_ensures {S K : World → Prop} (steady : World.Steady S) (le : ∀ v, S v → K v)
    (late : ∀ v time, S v → v.beyond time → X) (h : S v) :
    (s.issueIn r t).Ensures K X (fun _ => S) v := by
  refine Perseveres.retrying (I := fun _ _ => S) ⟨le _, id, id, fun h => ?_, ?_, late _ _⟩ h
  · refine steady.attempt le late h fun result u hu => ?_
    refine ⟨le u hu, ?_⟩
    cases Attempt.ofResult result <;> exact hu
  · exact fun span time h =>
      steady (steady h (World.dealt_logPause _ span)) (World.dealt_elapsed _ time)

/-! ## In a transaction of its own -/

/-- How an attempt in its own transaction leaves things: one that issues something has committed,
and that was its last call. -/
def AttemptEnds (w : World) (budget : Nat) (deals : List Call) (aborts : Nat) :
    Attempt → World → Prop
  | .issued _, v => ∃ deals', w.Dealt v (.finish .commit :: deals') [] 1 aborts ∧
      deals'.count .start ≤ budget ∧ v.log.head? = some (.finish .commit)
  | _, v => ∃ deals' aborts', w.Dealt v deals' [] 0 aborts' ∧
      deals'.count .start ≤ deals.count .start + 1

theorem attemptAlone_ensures (h : w.Dealt v deals [] 0 aborts)
    (room : deals.count .start < budget) :
    (s.attemptAlone r).Ensures (w.Orderly budget) (¬ w.Attended)
      (AttemptEnds w budget deals aborts) v := by
  -- An attempt that issues nothing is over once nothing is open.
  have idle {u deals' aborts' attempt} (hu : w.Dealt u deals' [] 0 aborts')
      (few : deals'.count .start = deals.count .start + 1) (ne : ∀ id, attempt ≠ .issued id) :
      (Plan.done attempt).Ensures (w.Orderly budget) (¬ w.Attended)
        (AttemptEnds w budget deals aborts) u := by
    refine ⟨hu.orderly (Nat.zero_le 1) (few ▸ room), ?_⟩
    cases attempt with
    | issued id => exact absurd rfl (ne id)
    | _ => exact ⟨_, _, hu, Nat.le_of_eq few⟩
  have asked := h.submit .start (c := .start) trivial
  refine .start (h.orderly (Nat.zero_le 1) (Nat.le_of_lt room)) ?_
    (fun e _ => idle asked (by simp) (Attempt.ofError_ne_issued _)) fun stall => ?_
  · have opened := h.trans v.dealt_start
    simp only [List.singleton_append, Nat.add_zero] at opened
    have mine : v.ledger.start.1.ledger = w.ledger.name := h.name
    have count : (Call.start :: deals).count .start ≤ budget := by
      simpa [Nat.succ_le_iff] using room
    refine (World.Steady.dealt _ _ _ _ _).attempt (fun u hu => hu.orderly (by simp) count)
      (fun u time hu late attended => hu.not_beyond late attended.patient) opened
      fun result u hu => ?_
    split
    · next id =>
      refine hu.finish_ensures mine count (fun _ u' hu' last => ?_) fun result u' ne hu' => ?_
      · exact ⟨hu'.orderly (Nat.zero_le 1) (by simpa using count), _, hu', count, last⟩
      · match result with
        | .ok () => cases ne rfl
        | .error e => exact idle hu' (by simp) (Attempt.ofError_ne_issued _)
    · next result ne =>
      exact hu.finish_ensures mine count nofun fun _ u' _ hu' =>
        idle hu' (by simp) fun id h => ne id (Attempt.eq_clear_of_issued h)
  · exact ⟨asked.orderly (Nat.zero_le 1) (by simpa [Nat.succ_le_iff] using room), fun attended =>
      (h.attended attended).returns .start (by simp) stall⟩

def IssueEnds (w : World) (budget : Nat) : Except Error String → World → Prop
  | .ok _, v => ∃ deals aborts, w.Dealt v (.finish .commit :: deals) [] 1 aborts ∧
      deals.count .start ≤ budget ∧ v.log.head? = some (.finish .commit)
  | .error _, v => ∃ deals aborts, w.Dealt v deals [] 0 aborts ∧ deals.count .start ≤ budget

theorem issueOne_ensures (w : World) :
    (s.issueOne r).Ensures (w.Orderly r.maxAttempts) (¬ w.Attended) (IssueEnds w r.maxAttempts)
      w := by
  -- Before each attempt nothing is open, and there is room for those that are left.
  let I (left : Nat) (_ : Option LedgerError) (v : World) :=
    ∃ deals aborts, w.Dealt v deals [] 0 aborts ∧ deals.count .start + left ≤ r.maxAttempts
  refine Perseveres.retrying (I := I) ?_ ⟨[], 0, .refl w, by simp⟩
  refine ⟨?_, ?_, ?_, ?_, ?_, ?_⟩
  · rintro left last v ⟨deals, aborts, h, room⟩
    exact h.orderly (Nat.zero_le 1) (by omega)
  · rintro left last v ⟨deals, aborts, h, room⟩
    exact ⟨deals, aborts, h, by omega⟩
  · rintro last v ⟨deals, aborts, h, room⟩
    exact ⟨deals, aborts, h, by omega⟩
  · rintro left last v ⟨deals, aborts, h, room⟩
    have room' : deals.count .start < r.maxAttempts := by omega
    refine (attemptAlone_ensures s r h room').mono fun result u ends => ?_
    match result with
    | .issued id =>
      obtain ⟨deals', hu, count, last⟩ := ends
      exact ⟨deals', aborts, hu, count, last⟩
    | .fatal e | .collided | .transient e =>
      obtain ⟨deals', aborts', hu, count⟩ := ends
      exact ⟨deals', aborts', hu, by omega⟩
  · rintro left last v span time ⟨deals, aborts, h, room⟩
    exact ⟨deals, aborts, (h.then (v.dealt_logPause span)).then (World.dealt_elapsed _ time), room⟩
  · rintro left last v time ⟨deals, aborts, h, room⟩ late attended
    exact h.not_beyond late attended.patient

/-! ## All or none -/

/-- How an issue of `n` identifiers in one transaction leaves things. -/
def BatchEnds (w : World) (n : Nat) : Except Error (List String) → World → Prop
  | .ok ids, v => ids.length = n ∧ w.Dealt v [.finish .commit, .start] [] 1 0 ∧
      v.log.head? = some (.finish .commit)
  | .error _, v => ∃ deals opened, w.Dealt v deals [] 0 opened ∧ deals.count .start ≤ 1 ∧
      opened ≤ 1

theorem issueRest_ensures (mine : t.ledger = w.ledger.name) (left : Nat) (ids : List String)
    (h : w.Dealt v [.start] [t.serial] 0 0) :
    (s.issueRest r t left ids).Ensures (w.Orderly 1) (¬ w.Attended)
      (BatchEnds w (left + ids.length)) v := by
  induction left generalizing ids v with
  | zero =>
    refine h.finish_ensures mine (by simp) (fun _ u hu last => ?_) fun result u ne hu => ?_
    · exact ⟨hu.orderly (by simp) (by simp), by simp, hu, last⟩
    · match result with
      | .ok () => cases ne rfl
      | .error e => exact ⟨hu.orderly (by simp) (by simp), _, _, hu, by simp, by simp⟩
  | succ left ih =>
    have kept := s.issueIn_ensures r (t := t) (World.Steady.dealt w [.start] [t.serial] 0 0)
      (fun u hu => (hu.orderly (Nat.le_refl 1) (by simp) : w.Orderly 1 u))
      (fun u time hu late (attended : w.Attended) => hu.not_beyond late attended.patient) h
    refine kept.bind ?_
    rintro (e | id) u - hu
    · exact hu.finish_ensures mine (by simp) nofun fun _ u' _ hu' =>
        ⟨hu'.orderly (by simp) (by simp), _, _, hu', by simp, by simp⟩
    · have := ih (id :: ids) hu
      rwa [List.length_cons, ← Nat.add_assoc, Nat.add_right_comm] at this

theorem issueBatch_ensures {n : Nat} (pos : 0 < n) (w : World) :
    (s.issueBatch r n).Ensures (w.Orderly 1) (¬ w.Attended) (BatchEnds w n) w := by
  have still : w.Orderly 1 w := (World.Dealt.refl w).orderly (by simp) (by simp)
  have asked : w.Dealt (w.submit .start .start).2 [.start] [] 0 0 := w.dealt_submit .start .start
  rw [issueBatch, if_neg (Nat.ne_of_gt pos)]
  simp only [Plan.Ensures]
  split
  · exact ⟨still, [], 0, .refl w, by simp, by simp⟩
  · refine .start still ?_ (fun e _ => ?_) fun stall => ?_
    · exact s.issueRest_ensures r rfl n [] w.dealt_start
    · exact ⟨asked.orderly (by simp) (by simp), _, 0, asked, by simp, by simp⟩
    · exact ⟨asked.orderly (by simp) (by simp), fun attended =>
        attended.returns .start (by simp) stall⟩

end Series

/-! ## What comes of an issue -/

/-- **Every transaction that an issue opens is ended once.** It is one at a time, and they are as
many as there may be attempts at most. What is issued comes with one commit, which is the last call,
and where nothing is issued there is none; ending anything once more has no effect. An issue in a
given transaction opens and ends none, and leaves that one open. -/
theorem Series.issueOne_ends_each (s : Series) (r : RetrySettings) (w : World) :
    (∀ v ∈ (s.issueOne r).course w, ∃ held, held.length ≤ 1 ∧
      v.ledger.active = held ++ w.ledger.active) ∧
    (let (result, w') := (s.issueOne r).run w
    (w.Attended → ∃ x, result = .finished x) ∧
    ∃ calls, w'.log = calls ++ w.log ∧ calls.count .start ≤ r.maxAttempts ∧
      ∀ x, result = .finished x → ∃ commits aborts, w.Balance w' [] commits aborts ∧
        (∀ t how, ¬ w.ledger.IsOpen t → w'.ledger.finish t how = w'.ledger) ∧
        match x with
        | .ok _ => commits = 1 ∧ calls.head? = some (.finish .commit)
        | .error _ => commits = 0) ∧
    ∀ t, w.ledger.IsOpen t →
      (∀ v ∈ (s.issueIn r t).course w, v.ledger.IsOpen t) ∧
      let (result, w') := (s.issueIn r t).run w
      (w.horizon = none → ∃ x, result = .finished x) ∧ w.Balance w' [] 0 0 ∧
      ∃ calls, w'.log = calls ++ w.log ∧ ∀ c ∈ calls, ¬ c.Deals := by
  have whole := s.issueOne_ensures r w
  refine ⟨fun v hv => ?_, ⟨fun attended => whole.returns (not_not_intro attended), ?_⟩,
    fun t ht => ?_⟩
  · obtain ⟨deals, held, commits, aborts, h, single, -⟩ := whole.course v hv
    exact ⟨held, single, h.active⟩
  · obtain ⟨deals, held, commits, aborts, h, -, few⟩ := whole.last
    obtain ⟨calls, log, rfl⟩ := h.calls
    refine ⟨calls, log, by rwa [List.count_filter rfl] at few, fun x hx => ?_⟩
    have ends := whole.finished hx
    match x with
    | .ok id =>
      obtain ⟨deals, aborts, h, -, last⟩ := ends
      exact ⟨1, aborts, h.toBalance, fun t how closed => h.finish_of_not_isOpen closed how, rfl,
        h.head?_calls log last⟩
    | .error e =>
      obtain ⟨deals, aborts, h, -⟩ := ends
      exact ⟨0, aborts, h.toBalance, fun t how closed => h.finish_of_not_isOpen closed how, rfl⟩
  · have kept := s.issueIn_ensures r (t := t) (World.Steady.dealt w [] [] 0 0) (fun _ => id)
      (fun u time hu late => hu.not_beyond late) (.refl w)
    refine ⟨fun v hv => ?_, fun patient => kept.returns (not_not_intro patient), ?_⟩
    · have h := kept.course v hv
      exact ⟨ht.1.trans h.name.symm, h.active ▸ ht.2⟩
    · obtain ⟨calls, log, none⟩ := kept.last.calls
      exact ⟨kept.last.toBalance, calls, log, by simpa using none⟩

/-- A world in which the first addition never comes back and the first commit fails. -/
def World.rough : World where
  ledger := {}
  faults
    | .increment => [.stall]
    | .commit => [.fail (.unavailable "restart")]
    | _ => []
  clock := fun _ => ⟨1741942800, 0, 0⟩

theorem Series.issueOne_ends_each_rough :
    ∃ w' aborts,
      ((Series.roll {}).issueOne {}).run World.rough = (.finished (.ok "250314-0-02"), w') ∧
      World.rough.Balance w' [] 1 aborts := by
  have run :
      (((Series.roll {}).issueOne {}).run World.rough).1 = .finished (.ok "250314-0-02") := by
    cbv
  obtain ⟨-, ⟨-, calls, -, -, ends⟩, -⟩ := Series.issueOne_ends_each (.roll {}) {} World.rough
  obtain ⟨commits, aborts, balance, -, rfl, -⟩ := ends _ run
  exact ⟨_, aborts, Prod.ext run rfl, balance⟩

/-- **Several identifiers are issued in one transaction, all or none.** At most one transaction is
opened; it is ended with a commit, which is the last call, if all identifiers are issued, and
without one if none is. -/
theorem Series.issueBatch_all_or_none (s : Series) (r : RetrySettings) (n : Nat) (w : World) :
    let (result, w') := (s.issueBatch r n).run w
    (w.Attended → ∃ x, result = .finished x) ∧
    (n = 0 → result = .finished (.ok []) ∧ w' = w) ∧
    ∃ calls, w'.log = calls ++ w.log ∧ calls.count .start ≤ 1 ∧
      ∀ x, result = .finished x → match x with
        | .ok ids => ids.length = n ∧ (0 < n → w.Balance w' [] 1 0 ∧
            calls.head? = some (.finish .commit) ∧ .finish .abort ∉ calls)
        | .error _ => ∃ opened ≤ 1, w.Balance w' [] 0 opened := by
  obtain rfl | pos := Nat.eq_zero_or_pos n
  · refine ⟨fun _ => ⟨.ok [], rfl⟩, fun _ => ⟨rfl, rfl⟩, [], rfl, by simp, fun x hx => ?_⟩
    cases hx
    exact ⟨rfl, nofun⟩
  · have whole := s.issueBatch_ensures r pos w
    obtain ⟨deals, held, commits, aborts, h, -, few⟩ := whole.last
    obtain ⟨calls, log, rfl⟩ := h.calls
    refine ⟨fun attended => whole.returns (not_not_intro attended),
      fun zero => absurd zero (Nat.ne_of_gt pos), calls, log, by rwa [List.count_filter rfl] at few,
      fun x hx => ?_⟩
    have ends := whole.finished hx
    match x with
    | .ok ids =>
      obtain ⟨length, h, last⟩ := ends
      refine ⟨length, fun _ => ⟨h.toBalance, h.head?_calls log last, fun abort => ?_⟩⟩
      have : Call.finish .abort ∈ calls.filter (·.Deals) := List.mem_filter.mpr ⟨abort, rfl⟩
      rw [h.filter_calls log] at this
      simp at this
    | .error e =>
      obtain ⟨deals, opened, h, -, few⟩ := ends
      exact ⟨opened, few, h.toBalance⟩

/-- What comes of two numbers in one transaction. -/
abbrev World.pair (w : World) : Run (Except Error (List String)) × World :=
  ((Series.roll {}).issueBatch {} 2).run w

/-- The commit of a first pair fails, and a second pair is issued. -/
theorem Series.issueBatch_all_or_none_rough :
    World.rough.pair.1 = .finished (.error (.ledger (.unavailable "restart"))) ∧
      (∃ opened ≤ 1, World.rough.Balance World.rough.pair.2 [] 0 opened) ∧
    World.rough.pair.2.pair.1 = .finished (.ok ["250314-0-03", "250314-0-04"]) ∧
      World.rough.pair.2.Balance World.rough.pair.2.pair.2 [] 1 0 ∧
      World.rough.pair.2.pair.2.log.head? = some (.finish .commit) := by
  have fails : World.rough.pair.1 = .finished (.error (.ledger (.unavailable "restart"))) := by cbv
  have issues : World.rough.pair.2.pair.1 = .finished (.ok ["250314-0-03", "250314-0-04"]) := by cbv
  obtain ⟨-, -, _, -, -, ends⟩ := Series.issueBatch_all_or_none (.roll {}) {} 2 World.rough
  obtain ⟨-, -, calls, log, -, ends'⟩ :=
    Series.issueBatch_all_or_none (.roll {}) {} 2 World.rough.pair.2
  obtain ⟨-, balanced⟩ := ends' _ issues
  obtain ⟨balance, last, -⟩ := balanced (by decide)
  refine ⟨fails, ends _ fails, issues, balance, (congrArg List.head? log).trans ?_⟩
  rw [List.head?_append, last]
  rfl

end Docket
