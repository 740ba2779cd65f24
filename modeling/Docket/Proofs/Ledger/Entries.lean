import Docket.Proofs.Ledger.Isolation
import Docket.Scenario.Session

/-!
# What a lock table lists

A key that someone holds or waits for is listed, and its entry goes when its holder ends and nobody
waits. One kind of entry is left over. A wait can be given up just after the key was handed over. If
nobody else waits, the key is nobody's then, but its entry stays until someone takes the key and
ends.

* `LockTable.Held`, **`LockTable.Lists`**: a table lists the keys that are held, and some that were
  left behind. Each operation keeps that: `Lists.take?`, `Lists.join`, `Lists.leave`,
  `Lists.release`;
* `Archive.Listed`, **`Archive.Story.listed`**: which keys are listed, when an entry goes, and when
  a table is empty with no transaction open.
-/

namespace Docket

/-! ## The entries of a table -/

namespace LockTable

variable {table table' : LockTable} {left : String → Prop} {t : Nat} {key other : String}

def Held (table : LockTable) (key : String) : Prop := ∃ t, table.Holds t key

theorem held_iff : table.Held key ↔ (table.lock key).holder.isSome := by
  unfold Held
  simp only [holds_iff_lock, Option.isSome_iff_exists]

theorem held_congr (h : (table'.lock key).holder = (table.lock key).holder) :
    table'.Held key ↔ table.Held key := by
  rw [held_iff, held_iff, h]

theorem mem_iff : key ∈ table ↔ ∃ l, table[key]? = some l := by
  rw [Std.ExtTreeMap.mem_iff_isSome_getElem?, Option.isSome_iff_exists]

theorem Held.mem (h : table.Held key) : key ∈ table := by
  obtain ⟨t, ht⟩ := h
  obtain ⟨l, hl, -⟩ := holds_iff.mp ht
  exact mem_iff.mpr ⟨l, hl⟩

theorem mem_insert (l : Lock) : other ∈ table.insert key l ↔ key = other ∨ other ∈ table := by
  rw [Std.ExtTreeMap.mem_insert, Std.compare_eq_iff_eq]

theorem mem_take? (h : table.take? t key = some table') :
    other ∈ table' ↔ key = other ∨ other ∈ table := by
  rcases take?_eq_some h with ⟨rfl, held⟩ | ⟨l, -, rfl, -⟩
  · exact (or_iff_right_of_imp fun e => e ▸ Held.mem ⟨t, held⟩).symm
  · exact mem_insert l

theorem mem_join (h : key ∈ table) : other ∈ table.join t key ↔ other ∈ table := by
  rw [join, mem_insert]
  exact or_iff_right_of_imp fun e => e ▸ h

theorem mem_leave : other ∈ table.leave t key ↔ other ∈ table := by
  unfold leave
  split
  · rfl
  · next l hl =>
    rw [mem_insert]
    exact or_iff_right_of_imp fun e => e ▸ mem_iff.mpr ⟨l, hl⟩

theorem mem_release :
    key ∈ table.release t ↔ key ∈ table ∧ (table.Holds t key → (table.lock key).queue ≠ []) := by
  simp only [mem_iff, release, Std.ExtTreeMap.getElem?_filterMap', holds_iff_lock, lock]
  cases table[key]? with
  | none => simp
  | some l =>
    by_cases hh : l.holder = some t
    · cases hq : l.queue <;> simp [hh, hq]
    · simp [hh]

/-- A table lists the keys that are held, and those in `left`. -/
def Lists (table : LockTable) (left : String → Prop) : Prop :=
  ∀ key, key ∈ table ↔ table.Held key ∨ left key

theorem Lists.congr {left' : String → Prop} (h : table.Lists left)
    (hl : ∀ key, left' key ↔ left key) : table.Lists left' := by
  obtain rfl : left' = left := funext fun key => propext (hl key)
  exact h

theorem Lists.take? (h : table.Lists left) (ht : table.take? t key = some table') :
    table'.Lists fun k => key ≠ k ∧ left k := by
  intro other
  rw [mem_take? ht]
  by_cases e : key = other
  · subst e
    exact iff_of_true (.inl rfl) (.inl ⟨t, holds_of_take? ht⟩)
  · have same : table'.Held other ↔ table.Held other := held_congr (by rw [lock_take? ht, if_neg e])
    rw [or_iff_right e, h other]
    exact or_congr same.symm (and_iff_right e).symm

theorem Lists.join (h : table.Lists left) (held : table.Held key) :
    (table.join t key).Lists left := by
  intro other
  have same : (table.join t key).Held other ↔ table.Held other := by
    refine held_congr ?_
    rw [lock_join]
    split
    · next e => rw [← e]; rfl
    · rfl
  rw [mem_join held.mem, same]
  exact h other

/-- Who gives up waiting for a key that has been handed over may leave its entry behind. -/
theorem Lists.leave (h : table.Lists left) :
    (table.leave t key).Lists fun k => (table.Holds t key ∧ key = k) ∨ left k := by
  intro other
  rw [mem_leave]
  by_cases handed : table.Holds t key ∧ key = other
  · obtain ⟨holds, rfl⟩ := handed
    exact iff_of_true (Held.mem ⟨t, holds⟩) (.inr (.inl ⟨holds, rfl⟩))
  · have same : (table.leave t key).Held other ↔ table.Held other := by
      refine held_congr ?_
      rw [lock_leave]
      split
      · next e =>
        have other_holder : (table.lock key).holder ≠ some t := fun hh =>
          handed ⟨holds_iff_lock.mpr hh, e⟩
        rw [Lock.left, if_neg other_holder, e]
      · rfl
    rw [h other]
    exact or_congr same.symm (or_iff_right handed).symm

theorem Lists.release (h : table.Lists left) (own : ∀ k, table.Holds t k → ¬ left k) :
    (table.release t).Lists left := by
  intro other
  rw [mem_release, h other]
  by_cases holds : table.Holds t other
  · have handed : (table.release t).Held other ↔ (table.lock other).queue ≠ [] := by
      rw [held_iff, lock_release, Lock.letGo, if_pos (holds_iff_lock.mp holds), Lock.passOn]
      cases (table.lock other).queue <;> simp
    rw [handed]
    exact ⟨fun k => .inl (k.2 holds),
      fun k => ⟨.inl ⟨t, holds⟩, fun _ => k.resolve_right (own other holds)⟩⟩
  · have same : (table.release t).Held other ↔ table.Held other := by
      refine held_congr ?_
      rw [lock_release, Lock.letGo, if_neg fun hh => holds (holds_iff_lock.mpr hh)]
    rw [same]
    exact and_iff_left fun hh => absurd hh holds

end LockTable

def Event.ledger : Event → Nat
  | .start n | .touch n _ _ | .query n _ | .record n _ _ => n
  | .resume t | .giveUp t | .finish t _ => t.ledger

namespace Archive

variable {a : Archive} {passed : List (Tx × String)} {past : List (Archive × Event)} {n m : Nat}
  {t u : Tx} {c : Touch} {key : String} {e : Event} {o : Option String} {table : LockTable}

/-! ## How ledgers came to be like this -/

/-- Whose wait for which key is given up in an event, if the key has already been handed over. -/
def abandons (a : Archive) : Event → Option (Tx × String)
  | .giveUp t =>
    match a.waiting t with
    | some c => if (a.outcome t c).isSome then c.key?.map (t, ·) else none
    | none => none
  | _ => none

/-- The ledgers can come to be like this through these events, the last one first, each with the
ledgers before it. -/
inductive Story : Archive → List (Archive × Event) → Prop
  | opening (snapshots : Nat → Snapshot) : Story (opening snapshots) []
  | step {a : Archive} {past : List (Archive × Event)} {e : Event} (before : Story a past)
      (enabled : a.Enabled e) : Story (a.next e) ((a, e) :: past)

def passedIn (past : List (Archive × Event)) : List (Tx × String) :=
  past.flatMap fun p => (p.1.passes p.2).toList

def keyAt (n : Nat) (p : Option (Tx × String)) : Option String :=
  (p.filter (·.1.ledger = n)).map Prod.snd

/-- Whether a wait for a key of ledger `n` was given up after the key had been handed over, and
nobody has got past the wait for it since. -/
def LeftBehind (n : Nat) (key : String) : List (Archive × Event) → Prop
  | [] => False
  | (a, e) :: past => keyAt n (a.abandons e) = some key ∨
      keyAt n (a.passes e) ≠ some key ∧ LeftBehind n key past

theorem Story.lived (h : Story a past) : Lived a (passedIn past) := by
  induction h with
  | opening snapshots => exact .opening snapshots
  | step _ enabled ih => exact ih.step enabled

theorem keyAt_eq_some_iff {o : Option (Tx × String)} :
    keyAt n o = some key ↔ ∃ t, o = some (t, key) ∧ t.ledger = n := by
  cases o with
  | none => simp [keyAt]
  | some p =>
    obtain ⟨t, k⟩ := p
    simp only [keyAt, Option.map_eq_some_iff, Option.filter_eq_some_iff]
    constructor
    · rintro ⟨_, ⟨e, own⟩, rfl⟩
      cases e
      exact ⟨t, rfl, by simpa using own⟩
    · rintro ⟨_, e, own⟩
      obtain ⟨rfl, rfl⟩ := Prod.mk.inj (Option.some.inj e)
      exact ⟨(t, k), ⟨rfl, by simpa using own⟩, rfl⟩

theorem keyAt_map (h : t.ledger = n) : keyAt n (o.map (t, ·)) = o := by
  cases o <;> simp [keyAt, h]

theorem keyAt_of_ne {o : Option (Tx × String)} (h : ∀ {p}, o = some p → p.1.ledger ≠ n) :
    keyAt n o = none := by
  rw [Option.eq_none_iff_forall_ne_some]
  intro key hk
  obtain ⟨t, e, own⟩ := keyAt_eq_some_iff.mp hk
  exact h e own

/-! ## What an event makes of a ledger's locks -/

/-- What an event can make of the locks of ledger `n`, the key that someone gets past the wait for
in it, and the key for which a wait is given up after it has been handed over. -/
inductive Relocks (a : Archive) (n : Nat) : Event → Option String → Option String → LockTable → Prop
  | same {e : Event} : Relocks a n e none none (a.ledgers n).locks
  | taken {e : Event} {t : Tx} {key : String} {table : LockTable}
      (gets : (a.ledgers n).locks.take? t.serial key = some table) :
      Relocks a n e (some key) none table
  | joined {e : Event} {t : Tx} {key : String} (held : (a.ledgers n).locks.Held key) :
      Relocks a n e none none ((a.ledgers n).locks.join t.serial key)
  | left {e : Event} {t : Tx} {key : String} {o : Option String}
      (handed : ∀ k, o = some k ↔ (a.ledgers n).locks.Holds t.serial key ∧ key = k) :
      Relocks a n e none o ((a.ledgers n).locks.leave t.serial key)
  | released {t : Tx} {how : Ending} (own : t.ledger = n) (isOpen : a.IsOpen t) :
      Relocks a n (.finish t how) none none ((a.ledgers n).locks.release t.serial)

theorem ledgers_put (l : Ledger) : (a.put n l).ledgers n = l := Function.update_self ..

theorem ledgers_put_of_ne (ne : m ≠ n) (l : Ledger) : (a.put m l).ledgers n = a.ledgers n :=
  Function.update_of_ne ne.symm ..

theorem ledgers_next_of_ne (ne : e.ledger ≠ n) : (a.next e).ledgers n = a.ledgers n := by
  cases e <;> simp only [next] <;> (repeat' split) <;>
    first | rfl | exact ledgers_put_of_ne ne _

theorem Sound.ledger_of_passes {p : Tx × String} (h : a.Sound passed)
    (hp : a.passes e = some p) : p.1.ledger = e.ledger := by
  cases e with
  | touch n t c =>
    obtain ⟨⟨ht, -⟩, hp⟩ := Option.ite_none_right_eq_some.mp hp
    obtain ⟨key, -, rfl⟩ := Option.map_eq_some_iff.mp hp
    exact h.ledger_eq ht
  | resume t =>
    simp only [passes] at hp
    split at hp
    · obtain ⟨key, -, rfl⟩ := Option.map_eq_some_iff.mp (Option.ite_none_right_eq_some.mp hp).2
      rfl
    · cases hp
  | _ => cases hp

theorem abandons_eq_some_iff : a.abandons e = some (t, key) ↔
    ∃ c, e = .giveUp t ∧ a.waiting t = some c ∧ c.key? = some key ∧ (a.outcome t c).isSome := by
  constructor
  · intro he
    cases e with
    | giveUp u =>
      simp only [abandons] at he
      split at he
      · next c waits =>
        obtain ⟨out, he⟩ := Option.ite_none_right_eq_some.mp he
        obtain ⟨k, hk, e⟩ := Option.map_eq_some_iff.mp he
        obtain ⟨rfl, rfl⟩ := Prod.mk.inj e
        exact ⟨c, rfl, waits, hk, out⟩
      · cases he
    | _ => cases he
  · rintro ⟨c, rfl, waits, hk, out⟩
    simp [abandons, waits, hk, out]

theorem ledger_of_abandons {p : Tx × String} (hp : a.abandons e = some p) :
    p.1.ledger = e.ledger := by
  obtain ⟨c, rfl, -⟩ := abandons_eq_some_iff.mp hp
  rfl

theorem locks_put {l : Ledger} (h : l.locks = (a.ledgers m).locks) :
    ((a.put m l).ledgers n).locks = (a.ledgers n).locks := by
  by_cases e : m = n
  · rw [← e, ledgers_put, h]
  · rw [ledgers_put_of_ne e]

theorem Relocks.of_locks_eq (gained : keyAt n (a.passes e) = none)
    (lost : keyAt n (a.abandons e) = none) (h : table = (a.ledgers n).locks) :
    a.Relocks n e (keyAt n (a.passes e)) (keyAt n (a.abandons e)) table := by
  rw [gained, lost, h]
  exact .same

theorem Relocks.of_lockFor? {locks : LockTable}
    (hl : (a.ledgers n).lockFor? t c = some locks) : a.Relocks n e c.key? none locks := by
  cases hk : c.key? with
  | none =>
    rw [Ledger.lockFor?_of_key?_eq_none hk] at hl
    rw [← Option.some.inj hl]
    exact .same
  | some key =>
    rw [Ledger.lockFor?_of_key? hk] at hl
    exact .taken hl

theorem Sound.handed_iff (h : a.Sound passed) (waits : a.waiting t = some c)
    (hk : c.key? = some key) :
    (a.outcome t c).isSome ↔ (a.ledgers t.ledger).locks.Holds t.serial key := by
  have ht := h.isOpen_of_waiting waits
  constructor
  · exact fun out => h.holds_iff.mpr ⟨ht, .inr ⟨c, waits, hk, out⟩⟩
  · exact fun holds => (Ledger.isSome_touch_iff ht hk).mpr fun u hu => hu.unique holds

theorem Sound.relocks_touch (h : a.Sound passed) (ht : (a.ledgers n).IsOpen t) :
    a.Relocks n (.touch n t c) (keyAt n (a.passes (.touch n t c))) none
      ((a.next (.touch n t c)).ledgers n).locks := by
  obtain rfl : t.ledger = n := h.ledger_eq ht
  have out := Ledger.touch_of_isOpen (c := c) ht
  cases hl : (a.ledgers t.ledger).lockFor? t c with
  | none =>
    obtain ⟨key, hk, s, holds, -⟩ := Ledger.exists_of_lockFor?_eq_none hl
    rw [hl, Option.map_none] at out
    have passes : a.passes (.touch t.ledger t c) = none := by simp [passes, out]
    have next : ((a.next (.touch t.ledger t c)).ledgers t.ledger).locks =
        (a.ledgers t.ledger).locks.join t.serial key := by
      simp [next, out, await, ledgers_put, Ledger.joining, hk]
    rw [passes, next]
    exact .joined ⟨s, holds⟩
  | some locks =>
    rw [hl, Option.map_some] at out
    have passes : a.passes (.touch t.ledger t c) = c.key?.map (t, ·) := by simp [passes, out, ht]
    have next : ((a.next (.touch t.ledger t c)).ledgers t.ledger).locks = locks := by
      simp [next, out, ledgers_put, Ledger.wrote]
    rw [passes, keyAt_map rfl, next]
    exact .of_lockFor? hl

theorem Sound.relocks_resume (h : a.Sound passed) (waits : a.waiting t = some c) :
    a.Relocks t.ledger (.resume t) (keyAt t.ledger (a.passes (.resume t))) none
      ((a.next (.resume t)).ledgers t.ledger).locks := by
  have ht := h.isOpen_of_waiting waits
  have out := outcome_of_isOpen (c := c) ht
  cases hl : (a.ledgers t.ledger).lockFor? t c with
  | none =>
    rw [hl, Option.map_none] at out
    have passes : a.passes (.resume t) = none := by simp [passes, waits, out]
    have next : a.next (.resume t) = a := by simp [next, waits, out]
    rw [passes, next]
    exact .same
  | some locks =>
    rw [hl, Option.map_some] at out
    have passes : a.passes (.resume t) = c.key?.map (t, ·) := by simp [passes, waits, out]
    have next : ((a.next (.resume t)).ledgers t.ledger).locks = locks := by
      simp [next, waits, out, await, ledgers_put, Ledger.wrote]
    rw [passes, keyAt_map rfl, next]
    exact .of_lockFor? hl

theorem Sound.relocks_giveUp (h : a.Sound passed) (waits : a.waiting t = some c) :
    a.Relocks t.ledger (.giveUp t) none (keyAt t.ledger (a.abandons (.giveUp t)))
      ((a.next (.giveUp t)).ledgers t.ledger).locks := by
  obtain ⟨-, key, hk⟩ := (h t.ledger).open_of_waiting _ c waits
  have next : ((a.next (.giveUp t)).ledgers t.ledger).locks =
      (a.ledgers t.ledger).locks.leave t.serial key := by
    simp [next, waits, await, ledgers_put, Ledger.leaving, hk]
  rw [next]
  refine .left fun k => ?_
  rw [← h.handed_iff waits hk]
  by_cases out : (a.outcome t c).isSome
  · simp [abandons, waits, out, hk, keyAt]
  · simp [abandons, waits, out, keyAt]

theorem relocks_finish (how : Ending) :
    a.Relocks t.ledger (.finish t how) none none
      ((a.next (.finish t how)).ledgers t.ledger).locks := by
  by_cases ht : a.IsOpen t
  · rw [(ledger_finish ht how).2]
    exact .released rfl ht
  · have next : (a.next (.finish t how)).ledgers t.ledger = a.ledgers t.ledger :=
      (ledgers_put _).trans (if_neg ht)
    rw [next]
    exact .same

/-- An event leaves a ledger's locks alone, or one of its transactions takes a key, starts or stops
to wait for one, or ends. -/
theorem Sound.relocks_next (h : a.Sound passed) (n : Nat) (e : Event) :
    a.Relocks n e (keyAt n (a.passes e)) (keyAt n (a.abandons e)) ((a.next e).ledgers n).locks := by
  by_cases own : e.ledger = n
  · subst own
    cases e with
    | start n => exact .of_locks_eq rfl rfl (locks_put rfl)
    | touch n t c =>
      by_cases ht : (a.ledgers n).IsOpen t
      · exact h.relocks_touch ht
      · have out : (a.ledgers n).touch t c = _ := Ledger.touch_of_not_isOpen ht
        exact .of_locks_eq (by simp [passes, ht, keyAt]) rfl (by simp [next, out, put_self])
    | resume t =>
      cases waits : a.waiting t with
      | none => exact .of_locks_eq (by simp [passes, waits, keyAt]) rfl (by simp [next, waits])
      | some c => exact h.relocks_resume waits
    | giveUp t =>
      cases waits : a.waiting t with
      | none => exact .of_locks_eq rfl (by simp [abandons, waits, keyAt]) (by simp [next, waits])
      | some c => exact h.relocks_giveUp waits
    | finish t how => exact relocks_finish how
    | query n q => exact .of_locks_eq rfl rfl (locks_put (by cases q <;> rfl))
    | record n field values => exact .of_locks_eq rfl rfl (locks_put rfl)
  · exact .of_locks_eq (keyAt_of_ne (h.ledger_of_passes · ▸ own))
      (keyAt_of_ne (ledger_of_abandons · ▸ own)) (congrArg Ledger.locks (ledgers_next_of_ne own))

/-! ## Which keys are listed -/

/-- Whether a transaction waits for a key, or is open and has got past the wait for it. -/
def Wants (a : Archive) (passed : List (Tx × String)) (t : Tx) (key : String) : Prop :=
  a.IsOpen t ∧ (t, key) ∈ passed ∨ a.Awaits t key

theorem Sound.held_iff (h : a.Sound passed) :
    (a.ledgers n).locks.Held key ↔ ∃ t, t.ledger = n ∧ a.Wants passed t key := by
  constructor
  · rintro ⟨s, hs⟩
    obtain ⟨ht, past | ⟨c, waits, hk, -⟩⟩ := (h.holds_iff (t := ⟨n, s⟩)).mp hs
    · exact ⟨⟨n, s⟩, rfl, .inl ⟨ht, past⟩⟩
    · exact ⟨⟨n, s⟩, rfl, .inr ⟨c, waits, hk⟩⟩
  · rintro ⟨t, rfl, ⟨ht, past⟩ | waits⟩
    · exact ⟨t.serial, h.holds_iff.mpr ⟨ht, .inl past⟩⟩
    · rcases ((h t.ledger).serves key).awaited t.serial waits with holder | queued
      · exact ⟨t.serial, LockTable.holds_iff_lock.mpr holder⟩
      · rw [LockTable.held_iff, Option.isSome_iff_ne_none]
        intro free
        rw [((h t.ledger).serves key).idle free] at queued
        cases queued

theorem Sound.got_of_holds (h : a.Sound passed) (idle : a.waiting t = none)
    (holds : (a.ledgers t.ledger).locks.Holds t.serial key) : (t, key) ∈ passed := by
  obtain ⟨-, got | ⟨c, waits, -⟩⟩ := h.holds_iff.mp holds
  · exact got
  · rw [idle] at waits
    cases waits

theorem Sound.isOpen_of_next (h : a.Sound passed) (ht : (a.next e).IsOpen t)
    (past : (t, key) ∈ passed) : a.IsOpen t := by
  unfold IsOpen at ht ⊢
  have step := a.becomes_next t.ledger e
  generalize (a.next e).ledgers t.ledger = l at step ht
  cases step with
  | same | called | recorded => exact ht
  | started =>
    have earlier := (h t.ledger).earlier t.serial key past
    exact ⟨ht.1, (List.mem_cons.mp ht.2).resolve_left (Nat.ne_of_lt earlier)⟩
  | joined =>
    unfold Ledger.joining at ht
    split at ht <;> exact ht
  | left =>
    unfold Ledger.leaving at ht
    split at ht <;> exact ht
  | asked =>
    next q => cases q <;> exact ht
  | @finished u how own =>
    unfold Ledger.finish at ht
    split at ht
    · cases how <;> exact ⟨ht.1, List.mem_of_mem_erase ht.2⟩
    · exact ht

/-- A key that an open transaction has got past the wait for is not left behind. -/
theorem Story.not_leftBehind (h : Story a past) (ht : a.IsOpen t)
    (got : (t, key) ∈ passedIn past) : ¬ LeftBehind t.ledger key past := by
  induction h with
  | opening => cases got
  | @step a past e before enabled ih =>
    have sound := before.lived.sound
    rcases List.mem_append.mp got with now | earlier
    · -- It gets past the wait in this very event.
      rw [Option.mem_toList] at now
      have gained : keyAt t.ledger (a.passes e) = some key := keyAt_eq_some_iff.mpr ⟨t, now, rfl⟩
      rintro (lost | ⟨ne, -⟩)
      · obtain ⟨u, lost, -⟩ := keyAt_eq_some_iff.mp lost
        obtain ⟨c, rfl, -⟩ := abandons_eq_some_iff.mp lost
        cases now
      · exact ne gained
    · have wasOpen : a.IsOpen t := sound.isOpen_of_next ht earlier
      rintro (lost | ⟨-, left⟩)
      · -- The key was handed to who gives up, so nobody else had it.
        obtain ⟨u, lost, own⟩ := keyAt_eq_some_iff.mp lost
        obtain ⟨c, rfl, waits, hk, out⟩ := abandons_eq_some_iff.mp lost
        have past : a.IsOpen u ∧ a.Past (passedIn past) u key :=
          ⟨sound.isOpen_of_waiting waits, .inr ⟨c, waits, hk, out⟩⟩
        obtain rfl : u = t := sound.unique own past ⟨wasOpen, .inl earlier⟩
        exact ((sound u.ledger).serves key).apart u.serial ⟨c, waits, hk⟩ ⟨earlier, wasOpen.2⟩
      · exact ih wasOpen earlier left

theorem Story.lists (h : Story a past) (n : Nat) :
    (a.ledgers n).locks.Lists (LeftBehind n · past) := by
  induction h with
  | opening snapshots =>
    intro key
    have none : ¬ LockTable.Held ∅ key := by simp [LockTable.held_iff, LockTable.lock]
    exact iff_of_false Std.ExtTreeMap.not_mem_empty (not_or.mpr ⟨none, id⟩)
  | @step a past e before enabled ih =>
    have sound := before.lived.sound
    have relocks := sound.relocks_next n e
    simp only [LeftBehind]
    generalize keyAt n (a.passes e) = gained, keyAt n (a.abandons e) = lost,
      ((a.next e).ledgers n).locks = table at relocks ⊢
    cases relocks with
    | same => exact ih.congr fun k => by simp
    | taken gets => exact (ih.take? gets).congr fun k => by simp
    | joined held => exact (ih.join held).congr fun k => by simp
    | left handed => exact ih.leave.congr fun k => by simp [handed]
    | @released t how own isOpen =>
      subst own
      refine (ih.release fun k holds => ?_).congr fun k => by simp
      exact before.not_leftBehind isOpen (sound.got_of_holds enabled holds)

/-- An entry goes when the holder of its key ends and nobody waits. -/
theorem Relocks.of_not_mem {gained lost : Option String} (r : a.Relocks n e gained lost table)
    (mem : key ∈ (a.ledgers n).locks) (not : key ∉ table) :
    ∃ t how, e = .finish t how ∧ t.ledger = n ∧ a.IsOpen t ∧
      (a.ledgers n).locks.Holds t.serial key := by
  cases r with
  | same => exact absurd mem not
  | taken gets => exact absurd ((LockTable.mem_take? gets).mpr (.inr mem)) not
  | joined held => exact absurd ((LockTable.mem_join held.mem).mpr mem) not
  | left => exact absurd (LockTable.mem_leave.mpr mem) not
  | @released t how own isOpen =>
    refine ⟨t, how, rfl, own, isOpen, ?_⟩
    by_contra no
    exact not (LockTable.mem_release.mpr ⟨mem, fun holds => absurd holds no⟩)

/-- Which keys the lock tables list, given how the ledgers came to be like this. -/
structure Listed (a : Archive) (past : List (Archive × Event)) : Prop where
  /-- A key that a transaction holds or waits for is listed. -/
  kept : ∀ t key, a.Wants (passedIn past) t key → key ∈ (a.ledgers t.ledger).locks
  /-- An entry goes only when the holder of its key ends, and nobody waits for the key. -/
  removed : ∀ n key e, a.Enabled e → key ∈ (a.ledgers n).locks →
    key ∉ ((a.next e).ledgers n).locks →
    (∃ t how, e = .finish t how ∧ t.ledger = n ∧ a.IsOpen t ∧ (t, key) ∈ passedIn past) ∧
      ∀ t, t.ledger = n → ¬ (a.next e).Wants (passedIn ((a, e) :: past)) t key
  /-- It does go then. -/
  pruned : ∀ t how key, a.IsOpen t → (t, key) ∈ passedIn past →
    (∀ u, u.ledger = t.ledger → ¬ a.Awaits u key) →
    key ∉ ((a.next (.finish t how)).ledgers t.ledger).locks
  /-- Nothing else is listed but keys whose wait was given up after they had been handed over. -/
  listed_iff : ∀ n key, key ∈ (a.ledgers n).locks ↔
    (∃ t, t.ledger = n ∧ a.Wants (passedIn past) t key) ∨ LeftBehind n key past
  /-- With no transaction open, these are all that is listed. -/
  empty_iff : ∀ n, (∀ t, t.ledger = n → ¬ a.IsOpen t) →
    ((a.ledgers n).locks = ∅ ↔ ∀ key, ¬ LeftBehind n key past)
  empty : ∀ n, (∀ t, t.ledger = n → ¬ a.IsOpen t) →
    (∀ p ∈ past, keyAt n (p.1.abandons p.2) = none) → (a.ledgers n).locks = ∅

theorem LeftBehind.abandoned (h : LeftBehind n key past) :
    ∃ p ∈ past, keyAt n (p.1.abandons p.2) = some key := by
  induction past with
  | nil => exact h.elim
  | cons p past ih =>
    rcases h with lost | ⟨-, left⟩
    · exact ⟨p, List.mem_cons_self, lost⟩
    · obtain ⟨q, mem, lost⟩ := ih left
      exact ⟨q, List.mem_cons_of_mem p mem, lost⟩

theorem Sound.not_wants (h : a.Sound passed) (closed : ∀ t, t.ledger = n → ¬ a.IsOpen t)
    (own : t.ledger = n) : ¬ a.Wants passed t key := by
  rintro (⟨ht, -⟩ | ⟨c, waits, -⟩)
  · exact closed t own ht
  · exact closed t own (h.isOpen_of_waiting waits)

theorem Story.mem_locks_iff (h : Story a past) : key ∈ (a.ledgers n).locks ↔
    (∃ t, t.ledger = n ∧ a.Wants (passedIn past) t key) ∨ LeftBehind n key past := by
  rw [h.lists n key, h.lived.sound.held_iff]

theorem Story.locks_eq_empty_iff (h : Story a past) (closed : ∀ t, t.ledger = n → ¬ a.IsOpen t) :
    (a.ledgers n).locks = ∅ ↔ ∀ key, ¬ LeftBehind n key past := by
  rw [Std.ExtTreeMap.eq_empty_iff_forall_not_mem]
  refine forall_congr' fun key => not_congr ?_
  rw [h.mem_locks_iff, or_iff_right]
  rintro ⟨t, own, wants⟩
  exact h.lived.sound.not_wants closed own wants

/-- **What the lock tables list**, whatever any number of transactions have done. -/
theorem Story.listed (h : Story a past) : a.Listed past where
  kept t key wants := h.mem_locks_iff.mpr (.inl ⟨t, rfl, wants⟩)
  removed n key e enabled mem not := by
    have sound := h.lived.sound
    constructor
    · obtain ⟨t, how, rfl, own, ht, holds⟩ := (sound.relocks_next n e).of_not_mem mem not
      subst own
      exact ⟨t, how, rfl, rfl, ht, sound.got_of_holds enabled holds⟩
    · exact fun t own wants => not ((h.step enabled).mem_locks_iff.mpr (.inl ⟨t, own, wants⟩))
  pruned t how key ht got idle := by
    have sound := h.lived.sound
    have holds := sound.holds_iff.mpr ⟨ht, .inl got⟩
    rw [(ledger_finish ht how).2, LockTable.mem_release]
    rintro ⟨-, queued⟩
    obtain ⟨s, hs⟩ := List.exists_mem_of_ne_nil _ (queued holds)
    exact idle ⟨t.ledger, s⟩ rfl (((sound t.ledger).serves key).queued s hs)
  listed_iff _ _ := h.mem_locks_iff
  empty_iff _ := h.locks_eq_empty_iff
  empty _ closed none := (h.locks_eq_empty_iff closed).mpr fun key left => by
    obtain ⟨p, mem, lost⟩ := left.abandoned
    rw [none p mem] at lost
    cases lost

end Archive

/-! ## A session that leaves an entry behind -/

namespace Crew

variable {α : Type} {m : Manner} {fuel n : Nat} {w : World} {r : List (Task α) × World}

theorem rounds_eq_round {tasks : List (Task α)} (round : Crew.round fuel m.stamina tasks w = r)
    (up : r.2.timeIsUp = false) (stuck : r.1.any (·.canAct r.2) = false)
    (wake : nextWake? r.1 r.2 = none) : rounds m fuel (n + 1) tasks w = r := by
  subst round
  simp [rounds, up, stuck, wake]

theorem run_of_rounds {plans : List (Plan α)} (small : plans.length ≤ smallSize)
    (h : rounds m fuel fuel (plans.map Task.planned) w = r) :
    run m fuel plans w = (r.1.mapM Task.value?, r.1.foldl Task.drop r.2) := by
  subst h
  simp [run, small]

end Crew

namespace Scenario

/-- An attempt may last longer than a step, and the first question about records never comes
back. -/
def stalled : Session where
  ledger := {}
  clock := ⟨1741942800, 0, 0⟩
  settings := { retry := ⟨1, 100, 100000000⟩ }
  faults := fun m => if m = .recorded then [.stall] else []

def stalledIssue : Plan (Except Error String) :=
  (stalled.settings.series .rollNumber).issueOne stalled.settings.retry

/-- Where two issues at the same time get: one is stalled, the other waits for its key. -/
def stuck : List (Task (Except Error String)) × World :=
  Crew.round 384 (some 128) [.planned stalledIssue, .planned stalledIssue] (stalled.world false)

theorem run_stalled : Crew.run {} 384 [stalledIssue, stalledIssue] (stalled.world false) =
    (stuck.1.mapM Task.value?, stuck.1.foldl Task.drop stuck.2) := by
  refine Crew.run_of_rounds (by decide)
    (Crew.rounds_eq_round (n := 383) ?_ (by cbv) (by cbv) (by cbv))
  simp only [stuck, List.map]

theorem step_stalled : stalled.step (.together .rollNumber 2) =
    (.blocked, (stuck.1.foldl Task.drop stuck.2).log.reverse,
      (stalled.leave false (stuck.1.foldl Task.drop stuck.2)).tidy) := by
  have values : stuck.1.mapM Task.value? = none := by cbv
  have run : Crew.run stalled.manner (Crew.enough 2 stalled.settings.retry.maxAttempts)
      (List.replicate 2 ((stalled.settings.series .rollNumber).issueOne stalled.settings.retry))
      (stalled.world false) = (none, stuck.1.foldl Task.drop stuck.2) := by
    rw [← values]
    exact run_stalled
  simp only [Session.step, Session.act, Session.together, Session.exec, run, Option.elim]

end Scenario

/-! ## A key that nobody wants -/

namespace Archive

variable {a : Archive} {past : List (Archive × Event)} {n : Nat}

def tell (told : Archive × List (Archive × Event)) (e : Event) : Archive × List (Archive × Event) :=
  (told.1.next e, (told.1, e) :: told.2)

/-- Whether some events can happen one after the other. -/
def Possible : Archive → List Event → Prop
  | _, [] => True
  | a, e :: es => a.Enabled e ∧ (a.next e).Possible es

theorem Story.tells (h : Story a past) {es : List Event} (possible : a.Possible es) :
    Story (es.foldl tell (a, past)).1 (es.foldl tell (a, past)).2 := by
  induction es generalizing a past with
  | nil => exact h
  | cons e es ih => exact ih (h.step possible.1) possible.2

/-- Two transactions start. The first reads a key and ends while the second waits for that key; the
second gives up waiting when the key has been handed to it, and ends. -/
def littering : List Event := [
  .start 0, .start 0, .touch 0 ⟨0, 0⟩ (.getIn "k"), .touch 0 ⟨0, 1⟩ (.getIn "k"),
  .finish ⟨0, 0⟩ .abort, .giveUp ⟨0, 1⟩, .finish ⟨0, 1⟩ .abort]

/-- Ledgers without records, after that. -/
def littered : Archive × List (Archive × Event) :=
  littering.foldl tell (opening fun _ => {}, [])

theorem story_littered : Story littered.1 littered.2 :=
  (Story.opening _).tells ⟨trivial, trivial, rfl, rfl, rfl, trivial, rfl, trivial⟩

theorem not_isOpen_of_active (h : (a.ledgers n).active = []) (t : Tx) (own : t.ledger = n) :
    ¬ a.IsOpen t := by
  unfold IsOpen
  rw [own]
  rintro ⟨-, mem⟩
  rw [h] at mem
  cases mem

/-- No transaction is open, but the key is listed, for nobody. The same comes of a step of a session
that ends and drops two issues, the holder of their key first. -/
theorem littered_lists : (Story littered.1 littered.2 ∧
      (∀ t, t.ledger = 0 → ¬ littered.1.IsOpen t) ∧
      (littered.1.ledgers 0).locks["k"]? = some {}) ∧
    let (result, _, after) := Scenario.stalled.step (.together .rollNumber 2)
    result = .blocked ∧ after.ledger.active = [] ∧ after.ledger.locks["250314"]? = some {} := by
  refine ⟨⟨story_littered, not_isOpen_of_active (by cbv), by cbv⟩, ?_⟩
  rw [Scenario.step_stalled]
  exact ⟨rfl, by cbv, by cbv⟩

def sweeping : List Event := [.start 0, .touch 0 ⟨0, 2⟩ (.getIn "k"), .finish ⟨0, 2⟩ .commit]

def swept : Archive × List (Archive × Event) := sweeping.foldl tell littered

theorem story_swept : Story swept.1 swept.2 :=
  story_littered.tells ⟨trivial, by cbv, by cbv, trivial⟩

theorem listed_swept : Story swept.1 swept.2 ∧ (swept.1.ledgers 0).locks = ∅ := by
  have empty_iff := (Story.listed story_swept).empty_iff 0 (not_isOpen_of_active (by cbv))
  have abandons : littered.2.map (fun p => keyAt 0 (p.1.abandons p.2)) =
      [none, some "k", none, none, none, none, none] := by cbv
  refine ⟨story_swept, empty_iff.mpr ?_⟩
  -- The last three events are those of the third transaction, which takes the key.
  rintro key (lost | ⟨-, lost | ⟨taken, lost | ⟨-, left⟩⟩⟩)
  · cases lost
  · cases lost
  · cases lost
  · obtain ⟨p, mem, lost⟩ := left.abandoned
    have mem : some key ∈ littered.2.map fun p => keyAt 0 (p.1.abandons p.2) :=
      List.mem_map.mpr ⟨p, mem, lost⟩
    obtain rfl : key = "k" := by simpa [abandons] using mem
    exact taken (by cbv)

end Archive

end Docket
