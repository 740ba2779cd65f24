import Docket.Proofs.Ledger.Archive
import Docket.Proofs.Ledger.Queue
import Docket.Proofs.Ledger.Touches

/-!
# Locks in order

A ledger whose locks are held and queued for by those that use them and wait for them, and by nobody
else.

* **`Ledger.Orderly`**: that, given in which call each transaction waits and which keys it has used.
-/

namespace Docket

open Function (update)

/-- The locks of ledger `n` are held and queued for by those that use them and wait for them. -/
structure Ledger.Orderly (l : Ledger) (n : Nat) (waiting : Nat → Option Touch)
    (used : Nat → String → Prop) : Prop where
  name : l.name = n
  nodup : l.active.Nodup
  begun : ∀ s ∈ l.active, s < l.begun
  earlier : ∀ s key, used s key → s < l.begun
  open_of_waiting : ∀ s c, waiting s = some c → s ∈ l.active ∧ ∃ key, c.key? = some key
  serves : ∀ key, (l.locks.lock key).Serves (fun s => ∃ c, waiting s = some c ∧ c.key? = some key)
    fun s => used s key ∧ s ∈ l.active

namespace Ledger

variable {l l' : Ledger} {t : Tx} {c : Touch} {key : String} {locks : LockTable}

theorem lockFor?_of_key? (hk : c.key? = some key) : l.lockFor? t c = l.locks.take? t.serial key := by
  rw [lockFor?, hk]

theorem lockFor?_of_key?_eq_none (hk : c.key? = none) : l.lockFor? t c = some l.locks := by
  rw [lockFor?, hk]

theorem exists_of_lockFor?_eq_none (hl : l.lockFor? t c = none) :
    ∃ key, c.key? = some key ∧ ∃ u, l.locks.Holds u key ∧ u ≠ t.serial := by
  cases hk : c.key? with
  | none =>
    rw [lockFor?_of_key?_eq_none hk] at hl
    cases hl
  | some key =>
    rw [lockFor?_of_key? hk, LockTable.take?_eq_none_iff] at hl
    exact ⟨key, rfl, hl⟩

theorem isSome_touch_of_isOpen (h : l.IsOpen t) :
    (l.touch t c).isSome = (l.lockFor? t c).isSome := by
  rw [touch_of_isOpen h, Option.isSome_map]

theorem isSome_touch_iff (h : l.IsOpen t) (hk : c.key? = some key) :
    (l.touch t c).isSome ↔ l.locks.Within t.serial key := by
  rw [isSome_touch_of_isOpen h, lockFor?_of_key? hk, LockTable.isSome_take?_iff]
  rfl

namespace Orderly

variable {n : Nat} {waiting waiting' : Nat → Option Touch} {used used' : Nat → String → Prop}

theorem same (h : l.Orderly n waiting used) (name : l'.name = l.name)
    (begun : l'.begun = l.begun) (active : l'.active = l.active) (locks : l'.locks = l.locks) :
    l'.Orderly n waiting used where
  name := name.trans h.name
  nodup := active ▸ h.nodup
  begun := by rw [active, begun]; exact h.begun
  earlier := by rw [begun]; exact h.earlier
  open_of_waiting := by rw [active]; exact h.open_of_waiting
  serves := by rw [active, locks]; exact h.serves

theorem congr (h : l.Orderly n waiting used) (hw : ∀ s, waiting' s = waiting s)
    (hu : ∀ s key, used' s key ↔ used s key) : l.Orderly n waiting' used' := by
  obtain rfl : waiting' = waiting := funext hw
  obtain rfl : used' = used := funext fun s => funext fun key => propext (hu s key)
  exact h

/-- The holder of a key waits for it, or is open and has used it. -/
theorem holds_iff (h : l.Orderly n waiting used) {s : Nat} :
    l.locks.Holds s key ↔ s ∈ l.active ∧
      (used s key ∨ ∃ c, waiting s = some c ∧ c.key? = some key ∧ l.locks.Within s key) := by
  have serves := h.serves key
  constructor
  · intro hs
    rcases serves.wanted s (LockTable.holds_iff_lock.mp hs) with ⟨c, hc, hk⟩ | ⟨hu, hs⟩
    · exact ⟨(h.open_of_waiting s c hc).1, .inr ⟨c, hc, hk, fun u hu => hu.unique hs⟩⟩
    · exact ⟨hs, .inl hu⟩
  · rintro ⟨hs, hu | ⟨c, hc, hk, within⟩⟩ <;> rw [LockTable.holds_iff_lock]
    · exact serves.held s ⟨hu, hs⟩
    · by_contra no
      obtain ⟨u, ne, hu⟩ := serves.holder_of_waits ⟨c, hc, hk⟩ no
      exact ne (within u (LockTable.holds_iff_lock.mpr hu))

theorem start (h : l.Orderly n waiting used) : l.start.2.Orderly n waiting used where
  name := h.name
  nodup := List.nodup_cons.mpr ⟨fun mem => Nat.lt_irrefl _ (h.begun _ mem), h.nodup⟩
  begun s hs := by
    rcases List.mem_cons.mp hs with rfl | hs
    · exact Nat.lt_succ_self _
    · exact Nat.lt_succ_of_lt (h.begun s hs)
  earlier s key hs := Nat.lt_succ_of_lt (h.earlier s key hs)
  open_of_waiting s c hc :=
    ⟨List.mem_cons_of_mem _ (h.open_of_waiting s c hc).1, (h.open_of_waiting s c hc).2⟩
  serves key := by
    refine (h.serves key).congr (fun s => Iff.rfl) fun s => and_congr_right fun hs => ?_
    -- a new transaction has used nothing
    have ne : s ≠ l.begun := Nat.ne_of_lt (h.earlier s key hs)
    exact List.mem_cons.trans (or_iff_right ne)

theorem update_none_eq_some_iff {s u : Nat} {d : Touch} :
    update waiting u none s = some d ↔ waiting s = some d ∧ s ≠ u := by
  by_cases e : s = u
  · rw [e, Function.update_self]
    simp
  · rw [Function.update_of_ne e]
    simp [e]

theorem exists_update_none_iff {s u : Nat} :
    (∃ d, update waiting u none s = some d ∧ d.key? = some key) ↔
      (∃ d, waiting s = some d ∧ d.key? = some key) ∧ s ≠ u := by
  simp only [update_none_eq_some_iff]
  exact ⟨fun ⟨d, ⟨hd, ne⟩, hk⟩ => ⟨⟨d, hd, hk⟩, ne⟩, fun ⟨⟨d, hd, hk⟩, ne⟩ => ⟨d, ⟨hd, ne⟩, hk⟩⟩

theorem serves_lockFor? (h : l.Orderly n waiting used) (ht : l.IsOpen t)
    (waits : waiting t.serial = none ∨ waiting t.serial = some c)
    (hl : l.lockFor? t c = some locks) (hk : c.key? = some key) :
    (locks.lock key).Serves
      (fun s => (∃ d, waiting s = some d ∧ d.key? = some key) ∧ s ≠ t.serial)
      fun s => (used s key ∧ s ∈ l.active) ∨ s = t.serial := by
  have serves := h.serves key
  rw [lockFor?_of_key? hk] at hl
  have within : l.locks.Within t.serial key :=
    LockTable.isSome_take?_iff.mp (Option.isSome_of_mem hl)
  rw [LockTable.lock_take? hl, if_pos rfl]
  rcases waits with none | some
  · have idle : ¬ ∃ d, waiting t.serial = some d ∧ d.key? = some key := by simp [none]
    refine (serves.take idle fun u hu => within u (LockTable.holds_iff_lock.mpr hu)).congr
      (fun s => ?_) fun s => Iff.rfl
    exact and_iff_left_of_imp fun hs e => idle (e ▸ hs)
  · -- The key was handed over while the call waited.
    have holder := LockTable.holds_iff_lock.mp
      (h.holds_iff.mpr ⟨ht.2, .inr ⟨c, some, hk, within⟩⟩)
    have same : (l.locks.lock key).heldBy t.serial = l.locks.lock key := by
      rw [Lock.heldBy, ← holder]
    rw [same]
    exact serves.resume holder

theorem serves_lockFor?_of_ne (h : l.Orderly n waiting used)
    (waits : waiting t.serial = none ∨ waiting t.serial = some c)
    (hl : l.lockFor? t c = some locks) (hk : c.key? ≠ some key) :
    (locks.lock key).Serves
      (fun s => (∃ d, waiting s = some d ∧ d.key? = some key) ∧ s ≠ t.serial)
      fun s => used s key ∧ s ∈ l.active := by
  have same : locks.lock key = l.locks.lock key := by
    unfold lockFor? at hl
    split at hl
    · next k hk' =>
      have ne : k ≠ key := fun e => hk (e ▸ hk')
      rw [LockTable.lock_take? hl, if_neg ne]
    · rw [Option.some.inj hl]
  rw [same]
  refine (h.serves key).congr (fun s => and_iff_left_of_imp ?_) fun s => Iff.rfl
  rintro ⟨d, hd, hk'⟩ rfl
  rcases waits with none | some
  · rw [none] at hd
    cases hd
  · exact hk (Option.some.inj (some.symm.trans hd) ▸ hk')

theorem wrote (h : l.Orderly n waiting used) (ht : l.IsOpen t)
    (waits : waiting t.serial = none ∨ waiting t.serial = some c)
    (hl : l.lockFor? t c = some locks) :
    (l.wrote c locks).Orderly n (update waiting t.serial none)
      fun s key => used s key ∨ s = t.serial ∧ c.key? = some key where
  name := h.name
  nodup := h.nodup
  begun := h.begun
  earlier s key hs := by
    rcases hs with hs | ⟨rfl, -⟩
    · exact h.earlier s key hs
    · exact h.begun _ ht.2
  open_of_waiting s d hd := h.open_of_waiting s d (update_none_eq_some_iff.mp hd).1
  serves key := by
    simp only [exists_update_none_iff]
    show (locks.lock key).Serves _ _
    by_cases hk : c.key? = some key
    · refine (h.serves_lockFor? ht waits hl hk).congr (fun s => Iff.rfl) fun s => ?_
      rw [or_and_right, and_assoc]
      exact or_congr_right ⟨And.left, fun e => ⟨e, hk, e ▸ ht.2⟩⟩
    · refine (h.serves_lockFor?_of_ne waits hl hk).congr (fun s => Iff.rfl) fun s => ?_
      exact and_congr_left fun _ => or_iff_left fun e => hk e.2

theorem joining (h : l.Orderly n waiting used) (ht : l.IsOpen t) (idle : waiting t.serial = none)
    (hl : l.lockFor? t c = none) :
    (l.joining t c).Orderly n (update waiting t.serial (some c)) used := by
  obtain ⟨key, hk, u, hu, ne⟩ := exists_of_lockFor?_eq_none hl
  have e : l.joining t c = { l with locks := l.locks.join t.serial key } := by
    rw [Ledger.joining, hk]
  have waits_iff : ∀ s other, (∃ d, update waiting t.serial (some c) s = some d ∧
      d.key? = some other) ↔
      (∃ d, waiting s = some d ∧ d.key? = some other) ∨ s = t.serial ∧ key = other := by
    intro s other
    by_cases es : s = t.serial
    · subst es
      simp [idle, hk]
    · simp [es]
  rw [e]
  exact {
    name := h.name
    nodup := h.nodup
    begun := h.begun
    earlier := h.earlier
    open_of_waiting := fun s d hd => by
      by_cases es : s = t.serial
      · rw [es, Function.update_self] at hd
        exact ⟨es ▸ ht.2, key, Option.some.inj hd ▸ hk⟩
      · rw [Function.update_of_ne es] at hd
        exact h.open_of_waiting s d hd
    serves := fun other => by
      have serves := h.serves other
      simp only [waits_iff]
      rw [LockTable.lock_join]
      split
      · next eo =>
        subst eo
        have notWaiting : ¬ ∃ d, waiting t.serial = some d ∧ d.key? = some key := by simp [idle]
        refine (serves.join notWaiting (LockTable.holds_iff_lock.mp hu) ne).congr (fun s => ?_)
          fun s => Iff.rfl
        simp
      · next no =>
        exact serves.congr (fun s => or_iff_left fun e => no e.2) fun s => Iff.rfl }

theorem leaving (h : l.Orderly n waiting used) (waits : waiting t.serial = some c) :
    (l.leaving t c).Orderly n (update waiting t.serial none) used := by
  obtain ⟨ht, key, hk⟩ := h.open_of_waiting _ c waits
  have e : l.leaving t c = { l with locks := l.locks.leave t.serial key } := by
    rw [Ledger.leaving, hk]
  rw [e]
  exact {
    name := h.name
    nodup := h.nodup
    begun := h.begun
    earlier := h.earlier
    open_of_waiting := fun s d hd => h.open_of_waiting s d (update_none_eq_some_iff.mp hd).1
    serves := fun other => by
      have serves := h.serves other
      simp only [exists_update_none_iff]
      rw [LockTable.lock_leave]
      split
      · next eo =>
        subst eo
        exact serves.leave (serves.apart _ ⟨c, waits, hk⟩)
      · next no =>
        refine serves.congr (fun s => and_iff_left_of_imp ?_) fun s => Iff.rfl
        rintro ⟨d, hd, hk'⟩ rfl
        obtain rfl : c = d := Option.some.inj (waits.symm.trans hd)
        exact no (Option.some.inj (hk.symm.trans hk')) }

theorem finish (h : l.Orderly n waiting used) (idle : waiting t.serial = none) (how : Ending) :
    (l.finish t how).Orderly n waiting used := by
  unfold Ledger.finish
  split
  · next ht =>
    have mem_iff : ∀ s, s ∈ l.active.erase t.serial ↔ s ≠ t.serial ∧ s ∈ l.active := fun s =>
      h.nodup.mem_erase_iff
    have ended : ({ l with
        active := l.active.erase t.serial
        locks := l.locks.release t.serial } : Ledger).Orderly n waiting used := {
      name := h.name
      nodup := h.nodup.erase _
      begun := fun s hs => h.begun s ((mem_iff s).mp hs).2
      earlier := h.earlier
      open_of_waiting := fun s d hd => by
        have ⟨hs, hk⟩ := h.open_of_waiting s d hd
        refine ⟨(mem_iff s).mpr ⟨?_, hs⟩, hk⟩
        rintro rfl
        rw [idle] at hd
        cases hd
      serves := fun key => by
        rw [LockTable.lock_release]
        have notWaiting : ¬ ∃ d, waiting t.serial = some d ∧ d.key? = some key := by simp [idle]
        refine ((h.serves key).finish notWaiting).congr (fun s => Iff.rfl) fun s => ?_
        rw [mem_iff]
        tauto }
    cases how <;> exact ended.same rfl rfl rfl rfl
  · exact h

end Orderly

end Ledger

end Docket
