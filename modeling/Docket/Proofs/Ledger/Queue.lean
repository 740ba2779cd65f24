import Docket.Proofs.Ledger.Locks
import Mathlib.Data.List.Nodup

/-!
# A lock and those who want it

The lock table, read one key at a time, and a lock against two lists of transactions: those that
wait for it, and those that have it and have used it.

* **`Lock.Serves`**: whoever has used a lock holds it, and all others that hold it or queue for it
  are waiting. Each operation keeps that: `Serves.take`, `Serves.join`, `Serves.resume`,
  `Serves.leave`, `Serves.finish`.
-/

namespace Docket

namespace Lock

/-- The lock after `t` has it. -/
def heldBy (l : Lock) (t : Nat) : Lock := { l with holder := some t }

def joined (l : Lock) (t : Nat) : Lock := { l with queue := l.queue ++ [t] }

def left (l : Lock) (t : Nat) : Lock :=
  if l.holder = some t then l.passOn else { l with queue := l.queue.erase t }

/-- The lock after `t` ends. -/
def letGo (l : Lock) (t : Nat) : Lock := if l.holder = some t then l.passOn else l

end Lock

/-! ## The table, key by key -/

namespace LockTable

variable {table table' : LockTable} {t : Nat} {key other : String}

def lock (table : LockTable) (key : String) : Lock := table[key]?.getD {}

theorem holds_iff_lock : table.Holds t key ↔ (table.lock key).holder = some t := by
  unfold Holds lock
  cases table[key]? <;> simp

theorem lock_insert (l : Lock) :
    lock (table.insert key l) other = if key = other then l else table.lock other := by
  rw [lock, Std.ExtTreeMap.getElem?_insert]
  by_cases e : key = other
  · rw [if_pos (by simpa using e), if_pos e, Option.getD_some]
  · rw [if_neg (by simpa using e), if_neg e, lock]

theorem take?_eq_none_iff : table.take? t key = none ↔ ∃ u, table.Holds u key ∧ u ≠ t := by
  rw [← Option.not_isSome_iff_eq_none, isSome_take?_iff]
  simp only [not_forall, exists_prop, ne_eq]

theorem lock_take? (h : table.take? t key = some table') :
    table'.lock other = if key = other then (table.lock key).heldBy t else table.lock other := by
  unfold take? at h
  split at h
  · next hk =>
    have hl : table.lock key = {} := by rw [lock, hk]; rfl
    rw [← Option.some.inj h, lock_insert, hl]
    rfl
  · next l hk =>
    have hl : table.lock key = l := by rw [lock, hk]; rfl
    split at h
    · rw [← Option.some.inj h, lock_insert, hl]
      rfl
    · next u hh =>
      split at h
      · next e =>
        have same : l.heldBy t = l := by rw [Lock.heldBy, ← e, ← hh]
        rw [← Option.some.inj h, hl, same]
        split
        · next e => rw [← e, hl]
        · rfl
      · cases h

theorem lock_join :
    (table.join t key).lock other =
      if key = other then (table.lock key).joined t else table.lock other := by
  rw [join, lock_insert]; rfl

theorem lock_leave :
    (table.leave t key).lock other =
      if key = other then (table.lock key).left t else table.lock other := by
  unfold leave
  split
  · next hk =>
    by_cases e : key = other
    · rw [if_pos e, ← e, lock, hk]
      simp [Lock.left]
    · rw [if_neg e]
  · next l hk =>
    have hl : table.lock key = l := by rw [lock, hk]; rfl
    rw [lock_insert, hl]
    rfl

theorem lock_release : (table.release t).lock key = (table.lock key).letGo t := by
  rw [lock, release, Std.ExtTreeMap.getElem?_filterMap', lock]
  cases hk : table[key]? with
  | none => simp [Lock.letGo]
  | some l =>
    simp only [Option.bind_some, Option.getD_some, Lock.letGo]
    split
    · cases hq : l.queue with
      | nil => simp [Lock.passOn, hq]
      | cons u queue => simp
    · rfl

theorem leave_join (waits : table.take? t key = none) (new : t ∉ (table.lock key).queue) :
    (table.join t key).leave t key = table := by
  obtain ⟨u, held, ne⟩ := take?_eq_none_iff.mp waits
  obtain ⟨l, hl, hu⟩ := holds_iff.mp held
  have hlock : table.lock key = l := by rw [lock, hl]; rfl
  have other : l.holder ≠ some t := fun e => ne (Option.some.inj (hu.symm.trans e))
  rw [hlock] at new
  have same : (l.queue ++ [t]).erase t = l.queue := by
    rw [List.erase_append_right _ new, List.erase_cons_head, List.append_nil]
  refine Std.ExtTreeMap.ext_getElem? fun {k} => ?_
  simp only [leave, join, hl, Option.getD_some, Std.ExtTreeMap.getElem?_insert_self, if_neg other,
    same, Std.ExtTreeMap.getElem?_insert, Std.compare_eq_iff_eq]
  split
  · next e => rw [← e, hl]
  · rfl

end LockTable

/-! ## Who waits and who has used it -/

namespace Lock

variable {l : Lock} {waits used : Nat → Prop} {t : Nat}

/-- Whoever has used a lock holds it; all others that hold it or queue for it are waiting. -/
structure Serves (l : Lock) (waits used : Nat → Prop) : Prop where
  held : ∀ s, used s → l.holder = some s
  wanted : ∀ s, l.holder = some s → waits s ∨ used s
  queued : ∀ s, s ∈ l.queue → waits s
  awaited : ∀ s, waits s → l.holder = some s ∨ s ∈ l.queue
  apart : ∀ s, waits s → ¬ used s
  nodup : l.queue.Nodup
  once : ∀ s, l.holder = some s → s ∉ l.queue
  /-- Nobody queues for a lock that nobody holds. -/
  idle : l.holder = none → l.queue = []

namespace Serves

theorem congr {waits' used' : Nat → Prop} (h : l.Serves waits used)
    (hw : ∀ s, waits' s ↔ waits s) (hu : ∀ s, used' s ↔ used s) : l.Serves waits' used' := by
  obtain rfl : waits' = waits := funext fun s => propext (hw s)
  obtain rfl : used' = used := funext fun s => propext (hu s)
  exact h

theorem nobody : Lock.Serves {} (fun _ => False) fun _ => False where
  held _ := False.elim
  wanted _ h := by cases h
  queued _ h := by cases h
  awaited _ := False.elim
  apart _ := False.elim
  nodup := .nil
  once _ _ h := by cases h
  idle _ := rfl

/-- A transaction that waits is the only one that does, or waits behind one that holds the lock. -/
theorem holder_of_waits (h : l.Serves waits used) (ht : waits t) (no : l.holder ≠ some t) :
    ∃ u, u ≠ t ∧ l.holder = some u := by
  have mem : t ∈ l.queue := (h.awaited t ht).resolve_left no
  cases hh : l.holder with
  | none => rw [h.idle hh] at mem; cases mem
  | some u => exact ⟨u, fun e => no (e ▸ hh), rfl⟩

theorem take (h : l.Serves waits used) (ht : ¬ waits t) (free : ∀ u, l.holder = some u → u = t) :
    (l.heldBy t).Serves waits fun s => used s ∨ s = t where
  held s hs := by
    rcases hs with hs | rfl
    · rw [← free s (h.held s hs)]; rfl
    · rfl
  wanted s hs := .inr (.inr (Option.some.inj hs).symm)
  queued := h.queued
  awaited s hs := by
    rcases h.awaited s hs with hh | hq
    · exact absurd (free s hh ▸ hs) ht
    · exact .inr hq
  apart s hs := by
    rintro (hu | rfl)
    · exact h.apart s hs hu
    · exact ht hs
  nodup := h.nodup
  once s hs hq := by
    obtain rfl : t = s := Option.some.inj hs
    exact ht (h.queued t hq)
  idle hn := by cases hn

theorem join (h : l.Serves waits used) (ht : ¬ waits t) {u : Nat} (hu : l.holder = some u)
    (ne : u ≠ t) : (l.joined t).Serves (fun s => waits s ∨ s = t) used where
  held := h.held
  wanted s hs := (h.wanted s hs).imp_left .inl
  queued s hs := by
    rcases List.mem_append.mp hs with hs | hs
    · exact .inl (h.queued s hs)
    · exact .inr (List.mem_singleton.mp hs)
  awaited s hs := by
    rcases hs with hs | rfl
    · exact (h.awaited s hs).imp_right (List.mem_append_left _)
    · exact .inr (List.mem_append_right _ List.mem_cons_self)
  apart s hs := by
    rcases hs with hs | rfl
    · exact h.apart s hs
    · exact fun used => ne (Option.some.inj (hu.symm.trans (h.held s used)))
  nodup := by
    have : t ∉ l.queue := fun mem => ht (h.queued t mem)
    exact List.Nodup.append h.nodup (List.nodup_singleton t) (by simpa using this)
  once s hs := by
    intro mem
    rcases List.mem_append.mp mem with mem | mem
    · exact h.once s hs mem
    · obtain rfl : s = t := List.mem_singleton.mp mem
      exact ne (Option.some.inj (hu.symm.trans hs))
  idle hn := by rw [joined, hu] at hn; cases hn

theorem resume (h : l.Serves waits used) (ht : l.holder = some t) :
    l.Serves (fun s => waits s ∧ s ≠ t) fun s => used s ∨ s = t where
  held s hs := by
    rcases hs with hs | rfl
    · exact h.held s hs
    · exact ht
  wanted s hs := .inr (.inr (Option.some.inj (hs.symm.trans ht)))
  queued s hs := ⟨h.queued s hs, fun e => h.once t ht (e ▸ hs)⟩
  awaited s hs := h.awaited s hs.1
  apart s hs := by
    rintro (hu | rfl)
    · exact h.apart s hs.1 hu
    · exact hs.2 rfl
  nodup := h.nodup
  once := h.once
  idle := h.idle

theorem passOn (h : l.Serves waits used) (ht : l.holder = some t) :
    l.passOn.Serves (fun s => waits s ∧ s ≠ t) fun s => used s ∧ s ≠ t := by
  have used_eq : ∀ s, used s → s = t := fun s hs =>
    Option.some.inj ((h.held s hs).symm.trans ht)
  have queue_ne : ∀ s ∈ l.queue, s ≠ t := fun s hs e => h.once t ht (e ▸ hs)
  have waits_queue : ∀ s, waits s → s ≠ t → s ∈ l.queue := fun s hs ne =>
    (h.awaited s hs).resolve_left fun hh => ne (Option.some.inj (hh.symm.trans ht))
  have nodup := h.nodup
  unfold Lock.passOn
  cases hq : l.queue with
  | nil =>
    -- Nobody wants it any more.
    rw [hq] at waits_queue
    refine nobody.congr (fun s => ⟨fun hs => ?_, False.elim⟩) fun s => ⟨fun hs => ?_, False.elim⟩
    · cases waits_queue s hs.1 hs.2
    · exact hs.2 (used_eq s hs.1)
  | cons u queue =>
    rw [hq] at nodup queue_ne waits_queue
    have all : ∀ s ∈ u :: queue, waits s := fun s hs => h.queued s (hq ▸ hs)
    exact {
      held := fun s hs => absurd (used_eq s hs.1) hs.2
      wanted := fun s hs => by
        obtain rfl : u = s := Option.some.inj hs
        exact .inl ⟨all u List.mem_cons_self, queue_ne u List.mem_cons_self⟩
      queued := fun s hs =>
        ⟨all s (List.mem_cons_of_mem u hs), queue_ne s (List.mem_cons_of_mem u hs)⟩
      awaited := fun s hs => by
        rcases List.mem_cons.mp (waits_queue s hs.1 hs.2) with rfl | mem
        · exact .inl rfl
        · exact .inr mem
      apart := fun s hs hu => hs.2 (used_eq s hu.1)
      nodup := nodup.of_cons
      once := fun s hs => by
        obtain rfl : u = s := Option.some.inj hs
        exact (List.nodup_cons.mp nodup).1
      idle := fun hn => by cases hn }

theorem leave (h : l.Serves waits used) (ht : ¬ used t) :
    (l.left t).Serves (fun s => waits s ∧ s ≠ t) used := by
  unfold left
  split
  · next hh =>
    refine (h.passOn hh).congr (fun s => Iff.rfl) fun s => ⟨fun hs => ⟨hs, ?_⟩, And.left⟩
    exact fun e => ht (e ▸ hs)
  · next no =>
    have mem_iff : ∀ s, s ∈ l.queue.erase t ↔ s ≠ t ∧ s ∈ l.queue := fun s =>
      h.nodup.mem_erase_iff
    exact {
      held := h.held
      wanted := fun s hs => (h.wanted s hs).imp_left fun hw => ⟨hw, fun e => no (e ▸ hs)⟩
      queued := fun s hs =>
        have ⟨ne, mem⟩ := (mem_iff s).mp hs
        ⟨h.queued s mem, ne⟩
      awaited := fun s hs => (h.awaited s hs.1).imp_right fun mem => (mem_iff s).mpr ⟨hs.2, mem⟩
      apart := fun s hs => h.apart s hs.1
      nodup := h.nodup.erase t
      once := fun s hs mem => h.once s hs ((mem_iff s).mp mem).2
      idle := fun hn => by rw [h.idle hn]; rfl }

theorem finish (h : l.Serves waits used) (ht : ¬ waits t) :
    (l.letGo t).Serves waits fun s => used s ∧ s ≠ t := by
  have ne_of_waits : ∀ s, waits s → s ≠ t := fun s hs e => ht (e ▸ hs)
  unfold letGo
  split
  · next hh =>
    exact (h.passOn hh).congr (fun s => ⟨fun hs => ⟨hs, ne_of_waits s hs⟩, And.left⟩)
      fun s => Iff.rfl
  · next no =>
    refine h.congr (fun s => Iff.rfl) fun s => ⟨And.left, fun hs => ⟨hs, ?_⟩⟩
    exact fun e => no (e ▸ h.held s hs)

end Serves

end Lock

end Docket
