import Docket.Proofs.Callers.Owner
import Docket.Proofs.Desk.Scope
import Docket.Proofs.Issue.Tidy

/-!
# Plans that keep to one counter

What a plan can change is read off the plan: where it works on one counter only, all other counters
and all records stay as they are and no other key is locked, whatever happens to its calls.

* `Ledger.Frame`: a relation between ledgers that nothing breaks which is done about one counter;
* `Work.run_framed`, **`Plan.run_framed`**: work and plans that keep to a counter do not break it
  either, where the clock stands.
-/

namespace Docket

variable {α : Type} {l l' l'' : Ledger} {w v u : World} {now : Time} {t : Tx} {key : String}
  {R : Ledger → Ledger → Prop}

/-! ## Frames -/

/-- A relation between a ledger and what becomes of it, which nothing breaks that is done about one
counter. -/
structure Ledger.Frame (R : Ledger → Ledger → Prop) (key : String) : Prop where
  refl : ∀ l, R l l
  trans : ∀ {l l' l''}, R l l' → R l' l'' → R l l''
  start : ∀ l, R l l.start.2
  wrote : ∀ {l t c locks}, (∀ k, c.key? = some k → k = key) → l.lockFor? t c = some locks →
    R l (l.wrote c locks)
  finish : ∀ l t how, R l (l.finish t how)
  query : ∀ {l q}, (∀ k, q = .remove k → k = key) → R l (l.query q).2

/-- The second ledger differs from the first in one counter at most, its locks and transactions
aside. -/
structure Ledger.Spares (l l' : Ledger) (key : String) : Prop where
  counters : ∀ k, k ≠ key → l'.counters[k]? = l.counters[k]?
  records : l'.records = l.records

namespace Ledger.Spares

theorem refl (l : Ledger) (key : String) : l.Spares l key := ⟨fun _ _ => rfl, rfl⟩

theorem trans (h : l.Spares l' key) (h' : l'.Spares l'' key) : l.Spares l'' key where
  counters k ne := (h'.counters k ne).trans (h.counters k ne)
  records := h'.records.trans h.records

theorem wrote {c : Touch} (locks : LockTable) (hc : ∀ k, c.key? = some k → k = key) :
    l.Spares (l.wrote c locks) key where
  counters k ne := Ledger.getElem?_counted_of_ne fun hk => ne (hc k hk)
  records := rfl

theorem finish (l : Ledger) (t : Tx) (how : Ending) : l.Spares (l.finish t how) key := by
  unfold Ledger.finish
  split
  · cases how <;> exact ⟨fun _ _ => rfl, rfl⟩
  · exact refl l key

theorem query {q : Query} (hq : ∀ k, q = .remove k → k = key) :
    l.Spares (l.query q).2 key := by
  cases q with
  | get | findExisting => exact refl l key
  | remove k =>
    refine ⟨fun k' ne => ?_, rfl⟩
    have ne' : k ≠ k' := fun e => ne (e ▸ hq k rfl)
    show (l.counters.erase k)[k']? = _
    rw [Std.ExtTreeMap.getElem?_erase, if_neg (by simpa using ne')]

theorem frame (key : String) : Frame (·.Spares · key) key where
  refl l := refl l key
  trans := trans
  start _ := ⟨fun _ _ => rfl, rfl⟩
  wrote hc _ := wrote _ hc
  finish := finish
  query := query

end Ledger.Spares

/-- In the second ledger all keys are free that are so in the first, one of them aside. -/
def Ledger.LeavesFree (l l' : Ledger) (key : String) : Prop :=
  ∀ k, k ≠ key → l.locks.Free k → l'.locks.Free k

theorem Ledger.LeavesFree.finish (l : Ledger) (t : Tx) (how : Ending) :
    l.LeavesFree (l.finish t how) key := by
  intro k _ free
  unfold Ledger.finish
  split
  · cases how <;> exact free.release
  · exact free

theorem Ledger.LeavesFree.frame (key : String) : Frame (·.LeavesFree · key) key where
  refl _ _ _ free := free
  trans h h' k ne free := h' k ne (h k ne free)
  start _ _ _ free := free
  wrote {l t c locks} hc hl k ne free := by
    unfold Ledger.lockFor? at hl
    split at hl
    · next k' hk => exact free.take? hl fun e => ne (e.trans (hc k' hk))
    · cases hl
      exact free
  finish := finish
  query {l q} _ k _ free := by cases q <;> exact free

/-- The second world comes after the first, with the ledgers related and the same clock. -/
structure World.Framed (R : Ledger → Ledger → Prop) (w v : World) : Prop where
  ledger : R w.ledger v.ledger
  clock : v.clock = w.clock

namespace Ledger.Frame

theorem of_eq (F : Frame R key) (ledger : v.ledger = w.ledger) (clock : v.clock = w.clock) :
    w.Framed R v :=
  ⟨by rw [ledger]; exact F.refl w.ledger, clock⟩

theorem append (F : Frame R key) (h : w.Framed R v) (h' : v.Framed R u) : w.Framed R u :=
  ⟨F.trans h.ledger h'.ledger, h'.clock.trans h.clock⟩

/-! ## Calls -/

theorem touch (F : Frame R key) {c : Touch} (hc : ∀ k, c.key? = some k → k = key) :
    w.Framed R (w.touch t c).2 := by
  have submitted : w.Framed R (w.submitTouch c).2 := F.of_eq rfl rfl
  unfold World.touch
  generalize w.submitTouch c = reply at submitted
  obtain ⟨_ | r, v⟩ := reply
  · dsimp only
    rcases v.reach_cases t c with ⟨e, reach⟩ | ⟨locks, -, taken, reach⟩ | ⟨-, -, reach⟩ <;>
      rw [reach]
    · exact submitted
    · exact F.append submitted ⟨F.wrote hc taken, rfl⟩
    · exact submitted
  · exact submitted

theorem opened (F : Frame R key) : w.Framed R w.start.2 := by
  unfold World.start
  simp only [World.submit]
  split
  · exact F.of_eq rfl rfl
  · exact F.of_eq rfl rfl
  · exact ⟨F.start w.ledger, rfl⟩

theorem ended (F : Frame R key) (how : Ending) : w.Framed R (w.finish t how).2 := by
  unfold World.finish
  simp only [World.submit]
  split
  · exact ⟨F.finish w.ledger t .abort, rfl⟩
  · exact F.of_eq rfl rfl
  · exact ⟨F.finish w.ledger t how, rfl⟩

theorem asked (F : Frame R key) {q : Query} (hq : ∀ k, q = .remove k → k = key) :
    w.Framed R (w.query q).2 := by
  unfold World.query
  simp only [World.submit]
  split
  · exact F.of_eq rfl rfl
  · exact F.of_eq rfl rfl
  · exact ⟨F.query hq, rfl⟩

end Ledger.Frame

/-! ## Work and plans -/

theorem Work.run_framed (F : Ledger.Frame R key) {work : Work α} (tidy : work.Tidy now key)
    (clock : ∀ n, w.clock n = now) : w.Framed R (work.run t w).2 := by
  induction work generalizing w with
  | done | fail => exact F.of_eq rfl rfl
  | now next ih =>
    have e : w.now = now := clock _
    rw [run, e]
    exact ih now tidy clock
  | draw n next ih =>
    have drawn : w.Framed R (w.takeWords n).2 := F.of_eq rfl rfl
    exact F.append drawn (ih _ (tidy _) clock)
  | note a next ih =>
    have noted : w.Framed R (w.note a) := F.of_eq rfl rfl
    exact F.append noted (ih tidy clock)
  | touch c next ih =>
    have first : w.Framed R (w.touch t c).2 := F.touch tidy.1
    rw [run]
    generalize w.touch t c = dealt at first
    obtain ⟨reply, v⟩ := dealt
    cases reply with
    | answer r =>
      cases r with
      | ok a => exact F.append first (ih a (tidy.2 a) fun n => first.clock ▸ clock n)
      | error e => exact first
    | waits | never => exact first

namespace Plan

/-- A plan works on one counter only, and deletes no other. -/
def Confined (now : Time) (key : String) : Plan α → Prop
  | .done _ => True
  | .poll next => ∀ b, (next b).Confined now key
  | .now next => (next now).Confined now key
  | .start next => ∀ r, (next r).Confined now key
  | .attempt _ _ work next => work.Tidy now key ∧ ∀ r, (next r).Confined now key
  | .finish _ _ next => ∀ r, (next r).Confined now key
  | .pause _ next => next.Confined now key
  | .query q next => (∀ k, q = .remove k → k = key) ∧ ∀ r, (next r).Confined now key

/-- **A plan that keeps to one counter**, where the clock stands, does not break a frame. -/
theorem run_framed (F : Ledger.Frame R key) {p : Plan α} (h : p.Confined now key)
    (clock : ∀ n, w.clock n = now) : w.Framed R (p.run w).2 := by
  induction p generalizing w with
  | done a => exact F.of_eq rfl rfl
  | poll next ih => exact ih _ (h _) clock
  | now next ih =>
    have e : w.now = now := clock _
    rw [run, e]
    exact ih now h clock
  | start next ih =>
    have first : w.Framed R w.start.2 := F.opened
    rw [run]
    generalize w.start = dealt at first
    obtain ⟨reply, v⟩ := dealt
    cases reply with
    | answer r => exact F.append first (ih r (h r) fun n => first.clock ▸ clock n)
    | waits | never => exact first
  | finish t how next ih =>
    have first : w.Framed R (w.finish t how).2 := F.ended how
    rw [run]
    generalize w.finish t how = dealt at first
    obtain ⟨reply, v⟩ := dealt
    cases reply with
    | answer r => exact F.append first (ih r (h r) fun n => first.clock ▸ clock n)
    | waits | never => exact first
  | query q next ih =>
    have first : w.Framed R (w.query q).2 := F.asked h.1
    rw [run]
    generalize w.query q = dealt at first
    obtain ⟨reply, v⟩ := dealt
    cases reply with
    | answer r => exact F.append first (ih r (h.2 r) fun n => first.clock ▸ clock n)
    | waits | never => exact first
  | attempt t limit work next ih =>
    have first : w.Framed R (work.run t w).2 := Work.run_framed F h.1 clock
    rw [run]
    generalize work.run t w = done at first
    obtain ⟨result, v⟩ := done
    cases result with
    | finished r => exact F.append first (ih r (h.2 r) fun n => first.clock ▸ clock n)
    | stuck =>
      -- Work that is stuck ends at its limit, if that comes; what it wrote before stays.
      dsimp only
      split
      · exact first
      · have late : w.Framed R { v with elapsed := v.elapsed + limit.nanos } :=
          F.append first (F.of_eq rfl rfl)
        exact F.append late (ih _ (h.2 _) fun n => first.clock ▸ clock n)
  | pause span next ih =>
    have logged : w.Framed R (w.logPause span) := F.of_eq rfl rfl
    rw [run]
    split
    · exact F.append logged (ih h clock)
    · split
      · exact logged
      · have late : w.Framed R { w.logPause span with elapsed := w.elapsed + span.nanos } :=
          F.of_eq rfl rfl
        exact F.append late (ih h clock)

end Plan

/-- The second world comes after the first, with one counter changed at most and the same clock. -/
structure World.Spares (w v : World) (key : String) : Prop
    extends w.ledger.Spares v.ledger key where
  clock : v.clock = w.clock

/-- **A plan that keeps to one counter**, where the clock stands, leaves all else as it is. -/
theorem Plan.run_spares {p : Plan α} (h : p.Confined now key) (clock : ∀ n, w.clock n = now) :
    w.Spares (p.run w).2 key :=
  have framed := run_framed (Ledger.Spares.frame key) h clock
  ⟨framed.ledger, framed.clock⟩

/-! ## Requests -/

theorem Plan.Within.confined {p : Plan α} (h : p.Within (.tidy now key)) :
    p.Confined now key := by
  induction p with
  | done a => trivial
  | poll next ih => exact fun b => ih b (h b)
  | now next ih => exact ih now (h now rfl)
  | start next ih => exact fun r => ih r (h r)
  | attempt t limit work next ih => exact ⟨h.1.tidy, fun r => ih r (h.2 r)⟩
  | finish t how next ih => exact fun r => ih r (h r)
  | pause span next ih => exact ih h
  | query q next ih => exact ⟨fun k e => h.1 k (e ▸ rfl), fun r => ih r (h.2 r)⟩

/-- **A request** keeps to the counter of its kind. -/
theorem Desk.confined_serve (d : Desk) (request : Request) (now : Time) :
    (d.serve request).Confined now ((d.settings.series request.kind).key now) :=
  (d.within_serve Series.tidy_admits).confined

end Docket
