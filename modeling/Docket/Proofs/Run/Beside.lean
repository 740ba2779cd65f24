import Docket.Proofs.Issue.Scope
import Docket.Proofs.Run.Steps

/-!
# Transactions that do not matter

A transaction that holds none of the keys a plan needs makes no difference to it. With it and
without it the plan comes to the same.

* `LockTable.take?_without`, **`LockTable.release_without`**: taking and letting go of keys is not
  affected;
* `Work.run_without`, **`Plan.run_without`**: work and plans come to the same.
-/

namespace Docket

variable {α : Type} {t u n : Nat} {c : Touch} {key : String} {locks : LockTable}

/-! ## Locks -/

namespace Lock

/-- The lock after `t` lets go of it, unless nobody wants it then. -/
def released? (l : Lock) (t : Nat) : Option Lock :=
  if l.holder = some t then if l.queue.isEmpty then none else some l.passOn else some l

/-- The lock without `u`, unless nobody wants it then. -/
def without? (l : Lock) (u : Nat) : Option Lock :=
  released? { l with queue := l.queue.filter (· ≠ u) } u

theorem released?_of_ne {l : Lock} (h : l.holder ≠ some t) : l.released? t = some l := if_neg h

theorem without?_of_ne {l : Lock} (h : l.holder ≠ some u) :
    l.without? u = some { l with queue := l.queue.filter (· ≠ u) } := released?_of_ne h

/-- A lock that is handed on first goes to the same transaction without one that does not count. -/
theorem released?_passOn (l : Lock) (ne : t ≠ u) (h : l.holder = some t) :
    (l.without? u).bind (·.released? t) = (l.released? t).bind (·.without? u) := by
  obtain ⟨holder, queue⟩ := l
  obtain rfl : holder = some t := h
  rw [without?_of_ne fun e => ne (Option.some.inj e), Option.bind_some]
  cases queue with
  | nil => simp [released?]
  | cons a queue =>
    by_cases e : a = u
    · subst e
      simp [released?, without?, passOn]
    · simp [released?, without?, passOn, e]

/-- Who does not queue for a lock lets go of it in the same way without another transaction. -/
theorem released?_without {l : Lock} (ne : t ≠ u) (idle : t ∉ l.queue) :
    (l.without? u).bind (·.released? t) = (l.released? t).bind (·.without? u) := by
  by_cases ht : l.holder = some t
  · exact released?_passOn l ne ht
  rw [released?_of_ne ht, Option.bind_some]
  by_cases hu : l.holder = some u
  · have first : ∀ a ∈ l.queue.filter (· ≠ u), a ≠ t := fun a ha e =>
      idle (e ▸ List.mem_of_mem_filter ha)
    simp only [without?, released?, hu, if_true]
    cases hq : l.queue.filter (· ≠ u) with
    | nil => rfl
    | cons a queue =>
      have ne : a ≠ t := first a (hq ▸ List.mem_cons_self)
      simp [passOn, ne]
  · rw [without?_of_ne hu, Option.bind_some]
    exact released?_of_ne ht

end Lock

namespace LockTable

variable {table : LockTable}

/-- The table without `u`. -/
def without (table : LockTable) (u : Nat) : LockTable := table.filterMap fun _ l => l.without? u

theorem getElem?_without : (table.without u)[key]? = table[key]?.bind (·.without? u) :=
  Std.ExtTreeMap.getElem?_filterMap'

theorem getElem?_release : (table.release t)[key]? = table[key]?.bind (·.released? t) :=
  Std.ExtTreeMap.getElem?_filterMap'

theorem without_insert {l l' : Lock} (h : l.without? u = some l') :
    without (table.insert key l) u = (table.without u).insert key l' := by
  refine Std.ExtTreeMap.ext_getElem? fun {k} => ?_
  simp only [getElem?_without, Std.ExtTreeMap.getElem?_insert]
  split
  · exact h
  · rfl

/-- Taking a key is not affected by who does not hold it. -/
theorem take?_without (ne : t ≠ u) (no : ¬ table.Holds u key) :
    (table.without u).take? t key = (table.take? t key).map (·.without u) := by
  have other : ∀ l : Lock, l.holder = some t →
      l.without? u = some { l with queue := l.queue.filter (· ≠ u) } := fun l hl =>
    Lock.without?_of_ne fun hu => ne (Option.some.inj (hl.symm.trans hu))
  simp only [take?, getElem?_without]
  cases hl : table[key]? with
  | none =>
    rw [Option.bind_none, Option.map_some, without_insert (other { holder := some t } rfl)]
    rfl
  | some l =>
    have hu : l.holder ≠ some u := fun hu => no (holds_iff.mpr ⟨l, hl, hu⟩)
    rw [Option.bind_some, Lock.without?_of_ne hu]
    cases hh : l.holder with
    | none =>
      simp only [hh, Option.map_some]
      rw [without_insert (other { l with holder := some t } rfl)]
    | some h =>
      simp only [hh]
      split <;> rfl

theorem release_without (ne : t ≠ u) (idle : ∀ key, t ∉ (table.lock key).queue) :
    (table.without u).release t = (table.release t).without u := by
  refine Std.ExtTreeMap.ext_getElem? fun {k} => ?_
  simp only [getElem?_without, getElem?_release, Option.bind_assoc]
  cases hl : table[k]? with
  | none => rfl
  | some l =>
    have : table.lock k = l := by rw [lock, hl]; rfl
    exact Lock.released?_without ne (this ▸ idle k)

end LockTable

/-! ## Ledgers -/

namespace Ledger

variable {l : Ledger} {t : Tx} {keys : String → Prop} {how : Ending}

def without (l : Ledger) (u : Nat) : Ledger :=
  { l with active := l.active.erase u, locks := l.locks.without u }

/-- Transaction `u` is older than number `n`, holds none of the keys, and will get none: where it
queues for one, another transaction that is older than `n` holds it. -/
structure Beside (l : Ledger) (u n : Nat) (keys : String → Prop) : Prop extends l.Unqueued n where
  older : u < n
  apart : ∀ key, keys key → ¬ l.locks.Holds u key
  behind : ∀ key, keys key → u ∈ (l.locks.lock key).queue → ∃ v < n, l.locks.Holds v key

theorem isOpen_without (ne : t.serial ≠ u) : (l.without u).IsOpen t ↔ l.IsOpen t :=
  and_congr_right fun _ => List.mem_erase_of_ne ne

namespace Beside

theorem ne (h : l.Beside u n keys) {s : Nat} (recent : n ≤ s) : s ≠ u :=
  Nat.ne_of_gt (Nat.lt_of_lt_of_le h.older recent)

/-! ### With and without it -/

theorem start_without (h : l.Beside u n keys) :
    (l.without u).start = (l.start.1, l.start.2.without u) := by
  simp [start, without, List.erase_cons_tail, h.ne h.begun]

theorem lockFor?_without (h : l.Beside u n keys) (recent : n ≤ t.serial)
    (hk : ∀ key, c.key? = some key → keys key) :
    (l.without u).lockFor? t c = (l.lockFor? t c).map (·.without u) := by
  unfold lockFor?
  split
  · next key e => exact LockTable.take?_without (h.ne recent) (h.apart key (hk key e))
  · rfl

theorem touch_without (h : l.Beside u n keys) (recent : n ≤ t.serial)
    (hk : ∀ key, c.key? = some key → keys key) :
    (l.without u).touch t c = (l.touch t c).map fun (r, l) => (r, l.without u) := by
  have same := isOpen_without (l := l) (h.ne recent)
  by_cases ht : l.IsOpen t
  · rw [touch_of_isOpen ht, touch_of_isOpen (same.mpr ht), h.lockFor?_without recent hk]
    simp only [Option.map_map]
    rfl
  · rw [touch_of_not_isOpen ht, touch_of_not_isOpen (mt same.mp ht)]
    rfl

theorem finish_without (h : l.Beside u n keys) (recent : n ≤ t.serial) :
    (l.without u).finish t how = (l.finish t how).without u := by
  have idle : ∀ key, t.serial ∉ (l.locks.lock key).queue := fun key mem =>
    Nat.lt_irrefl _ (Nat.lt_of_lt_of_le (h.queues key _ mem) recent)
  have active : (l.without u).active.erase t.serial = (l.active.erase t.serial).erase u :=
    List.erase_comm ..
  have locks : (l.without u).locks.release t.serial = (l.locks.release t.serial).without u :=
    LockTable.release_without (h.ne recent) idle
  unfold Ledger.finish
  simp only [isOpen_without (l := l) (h.ne recent), active, locks]
  split
  · cases how <;> rfl
  · rfl

theorem query_without (q : Query) :
    (l.without u).query q = ((l.query q).1, (l.query q).2.without u) := by
  cases q <;> rfl

/-! ### It stays beside -/

theorem start (h : l.Beside u n keys) : l.start.2.Beside u n keys :=
  ⟨h.toUnqueued.start, h.older, h.apart, h.behind⟩

theorem wrote (h : l.Beside u n keys) (recent : n ≤ t.serial)
    (hl : l.lockFor? t c = some locks) : (l.wrote c locks).Beside u n keys := by
  have unqueued := h.toUnqueued.wrote hl
  unfold lockFor? at hl
  split at hl
  · have apart : ∀ key, keys key → ¬ locks.Holds u key := by
      intro key hk hu
      rw [LockTable.holds_iff_lock, LockTable.lock_take? hl] at hu
      split at hu
      · exact h.ne recent (Option.some.inj hu)
      · exact h.apart key hk (LockTable.holds_iff_lock.mpr hu)
    have behind : ∀ key, keys key → u ∈ (locks.lock key).queue → ∃ v < n, locks.Holds v key := by
      intro key hk mem
      have before : u ∈ (l.locks.lock key).queue := by
        rw [LockTable.lock_take? hl] at mem
        split at mem
        · next e => exact e ▸ mem
        · exact mem
      obtain ⟨v, old, hv⟩ := h.behind key hk before
      exact ⟨v, old, hv.take? hl⟩
    exact ⟨unqueued, h.older, apart, behind⟩
  · cases hl
    exact ⟨unqueued, h.older, h.apart, h.behind⟩

theorem finish (h : l.Beside u n keys) (recent : n ≤ t.serial) :
    (l.finish t how).Beside u n keys := by
  have unqueued : (l.finish t how).Unqueued n := h.toUnqueued.finish
  -- Where it queues for a key, that is not the key of the transaction that ends.
  have other {key : String} (hk : keys key) (mem : u ∈ (l.locks.lock key).queue) :
      ∃ v < n, l.locks.Holds v key ∧ v ≠ t.serial := by
    obtain ⟨v, old, hv⟩ := h.behind key hk mem
    exact ⟨v, old, hv, Nat.ne_of_lt (Nat.lt_of_lt_of_le old recent)⟩
  have apart : ∀ key, keys key → ¬ (l.locks.release t.serial).Holds u key := by
    intro key hk hu
    rw [LockTable.holds_iff_lock, LockTable.lock_release, Lock.letGo] at hu
    split at hu
    · next mine =>
      obtain ⟨v, -, hv, ne⟩ := other hk (List.mem_of_mem_head? hu)
      exact ne (hv.unique (LockTable.holds_iff_lock.mpr mine))
    · exact h.apart key hk (LockTable.holds_iff_lock.mpr hu)
  have behind : ∀ key, keys key → u ∈ ((l.locks.release t.serial).lock key).queue →
      ∃ v < n, (l.locks.release t.serial).Holds v key := by
    intro key hk mem
    rw [LockTable.lock_release, Lock.letGo] at mem
    have before : u ∈ (l.locks.lock key).queue := by
      split at mem
      · exact List.mem_of_mem_tail mem
      · exact mem
    obtain ⟨v, old, hv, ne⟩ := other hk before
    exact ⟨v, old, hv.release ne⟩
  unfold Ledger.finish at unqueued ⊢
  split
  · next ht =>
    simp only [if_pos ht] at unqueued
    cases how <;> exact ⟨unqueued, h.older, apart, behind⟩
  · exact h

theorem query (h : l.Beside u n keys) (q : Query) : (l.query q).2.Beside u n keys := by
  cases q <;> exact ⟨⟨h.begun, h.queues⟩, h.older, h.apart, h.behind⟩

end Beside

end Ledger

/-! ## Worlds -/

namespace World

variable {w : World} {scope : Scope} {t : Tx}

def without (w : World) (u : Nat) : World := { w with ledger := w.ledger.without u }

/-- Transaction `u` is beside what may be asked for, at all times that the clock may show. -/
structure Beside (w : World) (u n : Nat) (scope : Scope) : Prop
    extends w.ledger.Beside u n scope.keys where
  times : ∀ k, scope.times (w.clock k)

namespace Beside

theorem touch (h : w.Beside u n scope) (recent : n ≤ t.serial)
    (hk : ∀ key, c.key? = some key → scope.keys key) :
    (w.without u).touch t c = ((w.touch t c).1, (w.touch t c).2.without u) ∧
      (w.touch t c).2.Beside u n scope := by
  have asks : (w.without u).submitTouch c =
      ((w.submitTouch c).1, (w.submitTouch c).2.without u) := rfl
  have asked : (w.submitTouch c).2.Beside u n scope := ⟨h.toBeside, h.times⟩
  rw [World.touch, asks, World.touch]
  generalize w.submitTouch c = reply at asked
  obtain ⟨_ | r, v⟩ := reply
  · have reaches := asked.toBeside.touch_without recent hk
    have same : (v.without u).reach t c = ((v.reach t c).1, (v.reach t c).2.without u) := by
      simp only [reach, without, reaches]
      cases v.ledger.touch t c <;> rfl
    refine ⟨same, ?_⟩
    rcases v.reach_cases t c with ⟨e, he⟩ | ⟨locks, -, hl, he⟩ | ⟨-, -, he⟩ <;> simp only [he]
    · exact asked
    · exact ⟨asked.toBeside.wrote recent hl, asked.times⟩
    · exact asked
  · exact ⟨rfl, asked⟩

theorem start (h : w.Beside u n scope) :
    (w.without u).start = (w.start.1, w.start.2.without u) ∧ w.start.2.Beside u n scope := by
  have asks : (w.without u).submit .start .start =
      ((w.submit .start .start).1, (w.submit .start .start).2.without u) := rfl
  have asked : (w.submit .start .start).2.Beside u n scope := ⟨h.toBeside, h.times⟩
  rw [World.start, asks, World.start]
  generalize w.submit .start .start = reply at asked
  obtain ⟨fault, v⟩ := reply
  cases fault with
  | fail | stall => exact ⟨rfl, asked⟩
  | pass | say =>
    refine ⟨?_, asked.toBeside.start, asked.times⟩
    simp only [without, asked.start_without]

theorem finish (h : w.Beside u n scope) (recent : n ≤ t.serial) (how : Ending) :
    (w.without u).finish t how = ((w.finish t how).1, (w.finish t how).2.without u) ∧
      (w.finish t how).2.Beside u n scope := by
  have asks : (w.without u).submit how.method (.finish how) =
      ((w.submit how.method (.finish how)).1,
        (w.submit how.method (.finish how)).2.without u) := rfl
  have asked : (w.submit how.method (.finish how)).2.Beside u n scope := ⟨h.toBeside, h.times⟩
  rw [World.finish, asks, World.finish]
  generalize w.submit how.method (.finish how) = reply at asked
  obtain ⟨fault, v⟩ := reply
  have ended (how : Ending) : { v with ledger := v.ledger.finish t how }.Beside u n scope :=
    ⟨asked.toBeside.finish recent, asked.times⟩
  cases fault with
  | stall => exact ⟨rfl, asked⟩
  | fail =>
    refine ⟨?_, ended .abort⟩
    simp only [without, asked.finish_without recent]
  | pass | say =>
    refine ⟨?_, ended how⟩
    simp only [without, asked.finish_without recent]

theorem query (h : w.Beside u n scope) (q : Query) :
    (w.without u).query q = ((w.query q).1, (w.query q).2.without u) ∧
      (w.query q).2.Beside u n scope := by
  have asks : (w.without u).submit q.method (.query q) =
      ((w.submit q.method (.query q)).1, (w.submit q.method (.query q)).2.without u) := rfl
  have asked : (w.submit q.method (.query q)).2.Beside u n scope := ⟨h.toBeside, h.times⟩
  rw [World.query, asks, World.query]
  generalize w.submit q.method (.query q) = reply at asked
  obtain ⟨fault, v⟩ := reply
  cases fault with
  | fail | stall => exact ⟨rfl, asked⟩
  | pass | say =>
    refine ⟨?_, asked.toBeside.query q, asked.times⟩
    simp only [without, Ledger.Beside.query_without]

end Beside

end World

/-! ## Work and plans -/

variable {w : World} {scope : Scope} {t : Tx}

/-- **Work comes to the same** without a transaction that is beside what it asks for. -/
theorem Work.run_without {work : Work α} (within : work.Within scope) (recent : n ≤ t.serial)
    (h : w.Beside u n scope) :
    work.run t (w.without u) = ((work.run t w).1, (work.run t w).2.without u) ∧
      (work.run t w).2.Beside u n scope := by
  induction work generalizing w with
  | done | fail => exact ⟨rfl, h⟩
  | now next ih => exact ih _ (within _ (h.times _)) h
  | draw k next ih => exact ih _ (w := (w.takeWords k).2) (within _) ⟨h.toBeside, h.times⟩
  | note a next ih => exact ih (w := w.note a) within.2 ⟨h.toBeside, h.times⟩
  | touch c next ih =>
    obtain ⟨same, first⟩ := h.touch recent within.1
    simp only [run, same]
    generalize w.touch t c = dealt at first
    obtain ⟨reply, v⟩ := dealt
    cases reply with
    | answer r =>
      cases r with
      | ok a => exact ih a (within.2 a) first
      | error e => exact ⟨rfl, first⟩
    | waits | never => exact ⟨rfl, first⟩

/-- **A plan comes to the same** without a transaction that is beside what it asks for. -/
theorem Plan.run_without {p : Plan α} (within : p.Within scope) (since : p.Since n)
    (h : w.Beside u n scope) :
    p.run (w.without u) = ((p.run w).1, (p.run w).2.without u) ∧
      (p.run w).2.Beside u n scope := by
  induction p generalizing w with
  | done a => exact ⟨rfl, h⟩
  | poll next ih => exact ih _ (within _) (since _) h
  | now next ih => exact ih _ (within _ (h.times _)) (since _) h
  | start next ih =>
    obtain ⟨same, first⟩ := h.start
    have recent := fun t => h.serial_of_start (t := t)
    simp only [run, same]
    generalize w.start = dealt at first recent
    obtain ⟨reply, v⟩ := dealt
    cases reply with
    | answer r => exact ih r (within r) (since r fun t e => recent t (e ▸ rfl)) first
    | waits | never => exact ⟨rfl, first⟩
  | finish t how next ih =>
    obtain ⟨same, first⟩ := h.finish since.1 how
    simp only [run, same]
    generalize w.finish t how = dealt at first
    obtain ⟨reply, v⟩ := dealt
    cases reply with
    | answer r => exact ih r (within r) (since.2 r) first
    | waits | never => exact ⟨rfl, first⟩
  | query q next ih =>
    obtain ⟨same, first⟩ := h.query q
    simp only [run, same]
    generalize w.query q = dealt at first
    obtain ⟨reply, v⟩ := dealt
    cases reply with
    | answer r => exact ih r (within.2 r) (since r) first
    | waits | never => exact ⟨rfl, first⟩
  | attempt t limit work next ih =>
    obtain ⟨same, first⟩ := Work.run_without within.1 since.1 h
    simp only [run, same]
    generalize work.run t w = done at first
    obtain ⟨result, v⟩ := done
    cases result with
    | finished r => exact ih r (within.2 r) (since.2 r) first
    | stuck =>
      have late : (v.without u).beyond ((v.without u).elapsed + limit.nanos) =
        v.beyond (v.elapsed + limit.nanos) := rfl
      simp only [late]
      split
      · exact ⟨rfl, first⟩
      · exact ih _ (w := { v with elapsed := v.elapsed + limit.nanos }) (within.2 _) (since.2 _)
          ⟨first.toBeside, first.times⟩
  | pause span next ih =>
    have late : (w.without u).beyond ((w.without u).elapsed + span.nanos) =
      w.beyond (w.elapsed + span.nanos) := rfl
    have hasty : (w.without u).restless = w.restless := rfl
    simp only [run, late, hasty]
    split
    · exact ih (w := w.logPause span) within since ⟨h.toBeside, h.times⟩
    · split
      · exact ⟨rfl, h.toBeside, h.times⟩
      · exact ih (w := { w.logPause span with elapsed := w.elapsed + span.nanos }) within since
          ⟨h.toBeside, h.times⟩

end Docket
