import Docket.Proofs.Desk.Keeps
import Docket.Proofs.Ledger.Orderly

/-!
# Transactions are kept apart

Whatever transactions of whatever ledgers do, in any order, a key belongs to one open transaction at
most from the moment it gets past the wait for it until it ends.

* `Archive.Isolated`, **`Archive.Lived.isolated`**: one holder, who has to wait and who not, what
  leaves counters and records as they are, and what becomes of a key when its holder ends.
-/

namespace Docket.Archive

open Function (update)

variable {a : Archive} {passed passed' : List (Tx × String)} {n : Nat} {t u : Tx} {c : Touch}
  {key : String} {o : Option Touch}
  {e : Event} {how : Ending}

theorem eq_of_serial (ledger : t.ledger = u.ledger) (serial : t.serial = u.serial) : t = u := by
  cases t
  cases u
  exact congrArg₂ Tx.mk ledger serial

/-! ## Every ledger in order -/

/-- Every ledger's locks are in order. -/
def Sound (a : Archive) (passed : List (Tx × String)) : Prop :=
  ∀ n, (a.ledgers n).Orderly n (fun s => a.waiting ⟨n, s⟩) fun s key => (⟨n, s⟩, key) ∈ passed

theorem Sound.ledger_eq (h : a.Sound passed) (ht : (a.ledgers n).IsOpen t) : t.ledger = n :=
  ht.1.trans (h n).name

theorem sound_opening (snapshots : Nat → Snapshot) : (opening snapshots).Sound [] := fun n => {
  name := rfl
  nodup := .nil
  begun := nofun
  earlier := nofun
  open_of_waiting := nofun
  serves := fun key => by
    have : LockTable.lock ∅ key = {} := by simp [LockTable.lock]
    show (LockTable.lock ∅ key).Serves _ _
    rw [this]
    exact Lock.Serves.nobody.congr (fun s => by simp [opening]) fun s => by simp }

/-- An event that changes one ledger, and what its transactions wait for and have got past. -/
theorem Sound.change (h : a.Sound passed) {l : Ledger} {waiting' : Tx → Option Touch}
    (waits : ∀ t, t.ledger ≠ n → waiting' t = a.waiting t)
    (passes : ∀ t key, t.ledger ≠ n → ((t, key) ∈ passed' ↔ (t, key) ∈ passed))
    (hl : l.Orderly n (fun s => waiting' ⟨n, s⟩) fun s key => (⟨n, s⟩, key) ∈ passed') :
    Sound ⟨update a.ledgers n l, waiting'⟩ passed' := by
  intro m
  by_cases e : m = n
  · subst e
    show (update a.ledgers m l m).Orderly m _ _
    rwa [Function.update_self]
  · show (update a.ledgers n l m).Orderly m _ _
    rw [Function.update_of_ne e]
    exact (h m).congr (fun s => waits ⟨m, s⟩ e) fun s key => passes ⟨m, s⟩ key e

theorem Sound.put (h : a.Sound passed) {l : Ledger}
    (hl : l.Orderly n (fun s => a.waiting ⟨n, s⟩) fun s key => (⟨n, s⟩, key) ∈ passed) :
    (a.put n l).Sound passed :=
  h.change (fun _ _ => rfl) (fun _ _ _ => Iff.rfl) hl

theorem update_waiting (waiting : Tx → Option Touch) (t : Tx) (o : Option Touch) (s : Nat) :
    update waiting t o ⟨t.ledger, s⟩ = update (fun s => waiting ⟨t.ledger, s⟩) t.serial o s := by
  by_cases e : s = t.serial
  · subst e
    rw [Function.update_self, Function.update_self]
  · have : (⟨t.ledger, s⟩ : Tx) ≠ t := fun h => e (congrArg Tx.serial h)
    rw [Function.update_of_ne e, Function.update_of_ne this]

/-- An event of one transaction, after which it waits or does not, and has perhaps got past the wait
for a key. -/
theorem Sound.of_tx (h : a.Sound passed) {l : Ledger} (k : Option String)
    (hl : l.Orderly t.ledger (update (fun s => a.waiting ⟨t.ledger, s⟩) t.serial o)
      fun s key => (⟨t.ledger, s⟩, key) ∈ passed ∨ s = t.serial ∧ k = some key) :
    ((a.put t.ledger l).await t o).Sound ((k.map (t, ·)).toList ++ passed) := by
  refine h.change (fun u ne => ?_) (fun u key ne => ?_) (hl.congr (fun s => ?_) fun s key => ?_)
  · exact Function.update_of_ne (fun e => ne (congrArg Tx.ledger e)) _ _
  · have : u ≠ t := fun e => ne (congrArg Tx.ledger e)
    cases k <;> simp [this]
  · exact update_waiting a.waiting t o s
  · have : (⟨t.ledger, s⟩ : Tx) = t ↔ s = t.serial :=
      ⟨congrArg Tx.serial, fun e => by rw [e]⟩
    cases k with
    | none => simp
    | some k =>
      rw [Option.map_some, Option.toList_some, List.singleton_append, List.mem_cons, Prod.mk.injEq,
        this, or_comm, Option.some.injEq, eq_comm (a := k)]

theorem Sound.of_wait (h : a.Sound passed) {l : Ledger}
    (hl : l.Orderly t.ledger (update (fun s => a.waiting ⟨t.ledger, s⟩) t.serial o)
      fun s key => (⟨t.ledger, s⟩, key) ∈ passed) :
    ((a.put t.ledger l).await t o).Sound passed :=
  h.of_tx none (hl.congr (fun _ => rfl) fun s key => by simp)

theorem await_self (h : a.waiting t = none) : a.await t none = a := by
  unfold await
  rw [← h, Function.update_eq_self]

theorem put_self : a.put n (a.ledgers n) = a := by
  unfold put
  rw [Function.update_eq_self]

theorem Sound.wrote (h : a.Sound passed) (ht : a.IsOpen t)
    (waits : a.waiting t = none ∨ a.waiting t = some c) {locks : LockTable}
    (hl : (a.ledgers t.ledger).lockFor? t c = some locks) :
    ((a.put t.ledger ((a.ledgers t.ledger).wrote c locks)).await t none).Sound
      ((c.key?.map (t, ·)).toList ++ passed) :=
  h.of_tx c.key? ((h t.ledger).wrote ht waits hl)

theorem Sound.isOpen_of_waiting (h : a.Sound passed) (waits : a.waiting t = some c) : a.IsOpen t :=
  ⟨(h t.ledger).name.symm, ((h t.ledger).open_of_waiting _ c waits).1⟩

theorem outcome_of_isOpen (ht : a.IsOpen t) :
    a.outcome t c = ((a.ledgers t.ledger).lockFor? t c).map fun locks =>
      (c.answer ((a.ledgers t.ledger).record? c) ((a.ledgers t.ledger).knows c),
        (a.ledgers t.ledger).wrote c locks) :=
  Ledger.touch_of_isOpen ht

theorem Sound.step_touch (h : a.Sound passed) (idle : a.waiting t = none) :
    (a.next (.touch n t c)).Sound ((a.passes (.touch n t c)).toList ++ passed) := by
  by_cases ht : (a.ledgers n).IsOpen t
  · obtain rfl : t.ledger = n := h.ledger_eq ht
    have out := outcome_of_isOpen (c := c) ht
    unfold outcome at out
    cases hl : (a.ledgers t.ledger).lockFor? t c with
    | none =>
      rw [hl, Option.map_none] at out
      simpa [next, passes, out] using h.of_wait ((h t.ledger).joining ht idle hl)
    | some locks =>
      rw [hl, Option.map_some] at out
      have gets := h.wrote ht (.inl idle) hl
      rw [await_self (show (a.put _ _).waiting t = none from idle)] at gets
      simpa [next, passes, out, ht] using gets
  · have still : (a.ledgers n).touch t c = _ := Ledger.touch_of_not_isOpen ht
    simpa [next, passes, still, ht, put_self] using h

theorem Sound.step_resume (h : a.Sound passed) :
    (a.next (.resume t)).Sound ((a.passes (.resume t)).toList ++ passed) := by
  cases waits : a.waiting t with
  | none => simpa [next, passes, waits] using h
  | some c =>
    have ht := h.isOpen_of_waiting waits
    have out := outcome_of_isOpen (c := c) ht
    cases hl : (a.ledgers t.ledger).lockFor? t c with
    | none =>
      rw [hl, Option.map_none] at out
      simpa [next, passes, waits, out] using h
    | some locks =>
      rw [hl, Option.map_some] at out
      simpa [next, passes, waits, out] using h.wrote ht (.inr waits) hl

theorem Sound.step_giveUp (h : a.Sound passed) : (a.next (.giveUp t)).Sound passed := by
  cases waits : a.waiting t with
  | none => simpa only [next, waits] using h
  | some c =>
    simpa only [next, waits] using h.of_wait ((h t.ledger).leaving waits)

theorem Sound.step (h : a.Sound passed) (enabled : a.Enabled e) :
    (a.next e).Sound ((a.passes e).toList ++ passed) := by
  cases e with
  | start n => exact h.put (h n).start
  | touch n t c => exact h.step_touch enabled
  | resume t => exact h.step_resume
  | giveUp t => exact h.step_giveUp
  | finish t how => exact h.put ((h t.ledger).finish enabled how)
  | query n q => exact h.put (by cases q <;> exact (h n).same rfl rfl rfl rfl)
  | record n field values => exact h.put ((h n).same rfl rfl rfl rfl)

theorem Lived.sound (h : Lived a passed) : a.Sound passed := by
  induction h with
  | opening snapshots => exact sound_opening snapshots
  | step _ enabled ih => exact ih.step enabled

/-! ## Who holds a key -/

theorem Sound.holds_iff (h : a.Sound passed) :
    (a.ledgers t.ledger).locks.Holds t.serial key ↔ a.IsOpen t ∧ a.Past passed t key := by
  have gets_iff : ∀ c, a.waiting t = some c → c.key? = some key →
      ((a.outcome t c).isSome ↔ (a.ledgers t.ledger).locks.Within t.serial key) := fun c hc hk =>
    Ledger.isSome_touch_iff (h.isOpen_of_waiting hc) hk
  rw [(h t.ledger).holds_iff]
  constructor
  · rintro ⟨hs, hp | ⟨c, hc, hk, within⟩⟩
    · exact ⟨⟨(h t.ledger).name.symm, hs⟩, .inl hp⟩
    · exact ⟨⟨(h t.ledger).name.symm, hs⟩, .inr ⟨c, hc, hk, (gets_iff c hc hk).mpr within⟩⟩
  · rintro ⟨ht, hp | ⟨c, hc, hk, gets⟩⟩
    · exact ⟨ht.2, .inl hp⟩
    · exact ⟨ht.2, .inr ⟨c, hc, hk, (gets_iff c hc hk).mp gets⟩⟩

theorem Sound.unique (h : a.Sound passed) (same : t.ledger = u.ledger)
    (ht : a.IsOpen t ∧ a.Past passed t key) (hu : a.IsOpen u ∧ a.Past passed u key) : t = u := by
  have holds_t := h.holds_iff.mpr ht
  have holds_u := h.holds_iff.mpr hu
  rw [← same] at holds_u
  exact eq_of_serial same (holds_t.unique holds_u)

theorem Sound.outcome_eq_none_iff (h : a.Sound passed) (ht : a.IsOpen t) :
    a.outcome t c = none ↔ ∃ key u, c.key? = some key ∧ u ≠ t ∧ u.ledger = t.ledger ∧
      a.IsOpen u ∧ a.Past passed u key := by
  rw [outcome_of_isOpen ht, Option.map_eq_none_iff]
  cases hk : c.key? with
  | none => simp [Ledger.lockFor?_of_key?_eq_none hk]
  | some key =>
    rw [Ledger.lockFor?_of_key? hk, LockTable.take?_eq_none_iff]
    constructor
    · rintro ⟨s, hs, ne⟩
      have past := (h.holds_iff (t := ⟨t.ledger, s⟩)).mp hs
      exact ⟨key, ⟨t.ledger, s⟩, rfl, fun e => ne (congrArg Tx.serial e), rfl, past⟩
    · rintro ⟨_, u, e, ne, same, past⟩
      obtain rfl := Option.some.inj e
      have hu := h.holds_iff.mpr past
      rw [same] at hu
      exact ⟨u.serial, hu, fun serial => ne (eq_of_serial same serial)⟩

/-! ## What becomes of a ledger -/

/-- What an event can make of ledger `n`. -/
inductive Becomes (a : Archive) (n : Nat) : Event → Ledger → Prop
  | same {e : Event} : Becomes a n e (a.ledgers n)
  | started : Becomes a n (.start n) (a.ledgers n).start.2
  /-- A call gets through, at once or after a wait. -/
  | called {e : Event} {u : Tx} {c : Touch} {locks : LockTable} (isOpen : (a.ledgers n).IsOpen u)
      (gets : (a.ledgers n).lockFor? u c = some locks)
      (made : e = .touch n u c ∨ e = .resume u ∧ a.waiting u = some c) :
      Becomes a n e ((a.ledgers n).wrote c locks)
  | joined {e : Event} {u : Tx} {c : Touch} : Becomes a n e ((a.ledgers n).joining u c)
  | left {e : Event} {u : Tx} {c : Touch} : Becomes a n e ((a.ledgers n).leaving u c)
  | finished {u : Tx} {how : Ending} (own : u.ledger = n) :
      Becomes a n (.finish u how) ((a.ledgers n).finish u how)
  | asked {q : Query} : Becomes a n (.query n q) ((a.ledgers n).query q).2
  | recorded {field : String} {values : List String} :
      Becomes a n (.record n field values) ((a.ledgers n).extendRecords field values)

theorem becomes_put {m : Nat} {l : Ledger} (hl : m = n → a.Becomes n e l) :
    a.Becomes n e ((a.put m l).ledgers n) := by
  show a.Becomes n e (update a.ledgers m l n)
  by_cases en : n = m
  · rw [en, Function.update_self, ← en]
    exact hl en.symm
  · rw [Function.update_of_ne en]
    exact .same

theorem becomes_of_touch {r : Except LedgerError c.Answer × Ledger}
    (out : (a.ledgers n).touch t c = some r)
    (made : e = .touch n t c ∨ e = .resume t ∧ a.waiting t = some c) : a.Becomes n e r.2 := by
  by_cases ht : (a.ledgers n).IsOpen t
  · rw [Ledger.touch_of_isOpen ht, Option.map_eq_some_iff] at out
    obtain ⟨locks, gets, rfl⟩ := out
    exact .called ht gets made
  · rw [Ledger.touch_of_not_isOpen ht] at out
    rw [← Option.some.inj out]
    exact .same

theorem becomes_next (a : Archive) (n : Nat) (e : Event) :
    a.Becomes n e ((a.next e).ledgers n) := by
  cases e with
  | start m => exact becomes_put fun h => h ▸ .started
  | touch m t c =>
    cases out : (a.ledgers m).touch t c with
    | none =>
      simp only [next, out]
      exact becomes_put fun h => h ▸ .joined
    | some r =>
      simp only [next, out]
      exact becomes_put fun h => becomes_of_touch (h ▸ out) (.inl (by rw [h]))
  | resume t =>
    cases waits : a.waiting t with
    | none =>
      simp only [next, waits]
      exact .same
    | some c =>
      cases out : a.outcome t c with
      | none =>
        simp only [next, waits, out]
        exact .same
      | some r =>
        simp only [next, waits, out]
        exact becomes_put fun h => becomes_of_touch (h ▸ out) (.inr ⟨rfl, waits⟩)
  | giveUp t =>
    cases waits : a.waiting t with
    | none =>
      simp only [next, waits]
      exact .same
    | some c =>
      simp only [next, waits]
      exact becomes_put fun h => h ▸ .left
  | finish t how =>
    refine becomes_put fun h => ?_
    subst h
    exact .finished rfl
  | query m q => exact becomes_put fun h => h ▸ .asked
  | record m field values => exact becomes_put fun h => h ▸ .recorded

/-! ## What a call leaves as it is -/

theorem counted_of_overflows {l : Ledger} (h : c.Overflows l) : l.counted c = l.counters := by
  cases c with
  | increment key step seed now =>
    have none : Touch.sum? key step seed now l.counters[key]? = none :=
      if_neg (Nat.not_lt.mpr h)
    simp [Ledger.counted, Touch.key?, Ledger.record?, Touch.written, none]
  | _ => exact h.elim

theorem getElem?_counted_of_not_isWrite {l : Ledger} (h : ¬ c.IsWrite key) :
    (l.counted c)[key]? = l.counters[key]? := by
  cases c with
  | getIn | recorded => rfl
  | increment k | set k =>
    exact Ledger.getElem?_counted_of_ne fun e => h (Option.some.inj e)

theorem key?_of_isWrite (h : c.IsWrite key) : c.key? = some key := by
  cases c with
  | getIn | recorded => exact h.elim
  | increment k | set k => exact congrArg some h

theorem snapshot_joining (l : Ledger) : (l.joining t c).snapshot = l.snapshot := by
  unfold Ledger.joining
  split <;> rfl

theorem snapshot_leaving (l : Ledger) : (l.leaving t c).snapshot = l.snapshot := by
  unfold Ledger.leaving
  split <;> rfl

theorem snapshot_next_touch (h : (a.ledgers n).touch t c = none ∨ ¬ (a.ledgers n).IsOpen t ∨
    c.Overflows (a.ledgers n)) (m : Nat) :
    ((a.next (.touch n t c)).ledgers m).snapshot = (a.ledgers m).snapshot := by
  have step := a.becomes_next m (.touch n t c)
  generalize (a.next (.touch n t c)).ledgers m = l at step ⊢
  cases step with
  | same => rfl
  | joined => exact snapshot_joining _
  | left => exact snapshot_leaving _
  | called ht gets made =>
    obtain ⟨rfl, rfl, rfl⟩ := Event.touch.inj (made.resolve_right nofun)
    have large : c.Overflows (a.ledgers n) := by
      rcases h with h | h | h
      · rw [Ledger.touch_of_isOpen ht, gets] at h
        cases h
      · exact absurd ht h
      · exact h
    exact congrArg (Snapshot.mk · _) (counted_of_overflows large)

theorem Sound.snapshot_next_resume (h : a.Sound passed) (waits : a.waiting t = some c)
    (large : c.Overflows (a.ledgers t.ledger)) (m : Nat) :
    ((a.next (.resume t)).ledgers m).snapshot = (a.ledgers m).snapshot := by
  have step := a.becomes_next m (.resume t)
  generalize (a.next (.resume t)).ledgers m = l at step ⊢
  cases step with
  | same => rfl
  | joined => exact snapshot_joining _
  | left => exact snapshot_leaving _
  | called ht gets made =>
    obtain ⟨e, waits'⟩ := made.resolve_left nofun
    obtain rfl := Event.resume.inj e
    obtain rfl : c = _ := Option.some.inj (waits.symm.trans waits')
    have own : t.ledger = m := h.ledger_eq ht
    exact congrArg (Snapshot.mk · _) (counted_of_overflows (own ▸ large))

/-! ## What others leave as it is -/

theorem Sound.eq_of_gets (h : a.Sound passed) (ht : a.IsOpen t) (past : a.Past passed t key)
    (hu : (a.ledgers t.ledger).IsOpen u) (hk : c.key? = some key) {locks : LockTable}
    (gets : (a.ledgers t.ledger).lockFor? u c = some locks) : u = t := by
  rw [Ledger.lockFor?_of_key? hk] at gets
  have within := LockTable.isSome_take?_iff.mp (Option.isSome_of_mem gets)
  have serial : t.serial = u.serial := within t.serial (h.holds_iff.mpr ⟨ht, past⟩)
  exact eq_of_serial (h.ledger_eq hu) serial.symm

/-- A counter whose key a transaction has got past the wait for changes only by its own writes, or
when it is deleted. -/
theorem Sound.counter_next (h : a.Sound passed) (ht : a.IsOpen t) (past : a.Past passed t key)
    (no : ¬ a.Writes t key e) : ((a.next e).ledgers t.ledger).counters[key]? =
      (a.ledgers t.ledger).counters[key]? := by
  -- To start or stop to wait does not show in a snapshot.
  have of_snapshot {l : Ledger} (e : l.snapshot = (a.ledgers t.ledger).snapshot) :
      l.counters[key]? = (a.ledgers t.ledger).counters[key]? :=
    congrArg (fun s : Snapshot => s.counters[key]?) e
  have step := a.becomes_next t.ledger e
  generalize (a.next e).ledgers t.ledger = l at step ⊢
  cases step with
  | same | started | recorded => rfl
  | joined => exact of_snapshot (snapshot_joining _)
  | left => exact of_snapshot (snapshot_leaving _)
  | finished => rw [Ledger.counters_finish]
  | called hu gets made =>
    -- A write here got the key that `t` holds, so it is one of `t`'s own.
    refine getElem?_counted_of_not_isWrite fun write => no ?_
    obtain rfl := h.eq_of_gets ht past hu (key?_of_isWrite write) gets
    rcases made with rfl | ⟨rfl, waits⟩
    · exact ⟨rfl, rfl, write⟩
    · exact ⟨rfl, _, waits, write⟩
  | @asked q =>
    cases q with
    | get | findExisting => rfl
    | remove k =>
      have ne : k ≠ key := fun e => no ⟨rfl, by rw [e]⟩
      show ((a.ledgers t.ledger).counters.erase k)[key]? = _
      rw [Std.ExtTreeMap.getElem?_erase, if_neg (by simpa using ne)]

theorem Sound.isOpen_next (h : a.Sound passed) (ht : a.IsOpen t)
    (no : ∀ how, e ≠ .finish t how) : (a.next e).IsOpen t := by
  unfold IsOpen at ht ⊢
  have step := a.becomes_next t.ledger e
  generalize (a.next e).ledgers t.ledger = l at step ⊢
  cases step with
  | same | called | recorded => exact ht
  | started => exact ⟨ht.1, List.mem_cons_of_mem _ ht.2⟩
  | joined =>
    unfold Ledger.joining
    split <;> exact ht
  | left =>
    unfold Ledger.leaving
    split <;> exact ht
  | asked =>
    next q => cases q <;> exact ht
  | @finished u how own =>
    have ne : t.serial ≠ u.serial := fun serial =>
      no how (congrArg (Event.finish · how) (eq_of_serial own serial.symm))
    have mem := ((h t.ledger).nodup.mem_erase_iff).mpr ⟨ne, ht.2⟩
    unfold Ledger.finish
    split
    · cases how <;> exact ⟨ht.1, mem⟩
    · exact ht

/-! ## What becomes of a key -/

theorem ledger_finish (ht : a.IsOpen t) (how : Ending) :
    ((a.next (.finish t how)).ledgers t.ledger).active =
        (a.ledgers t.ledger).active.erase t.serial ∧
      ((a.next (.finish t how)).ledgers t.ledger).locks =
        (a.ledgers t.ledger).locks.release t.serial := by
  have e : (a.next (.finish t how)).ledgers t.ledger = (a.ledgers t.ledger).finish t how :=
    Function.update_self ..
  have ht : (a.ledgers t.ledger).IsOpen t := ht
  rw [e, Ledger.finish, if_pos ht]
  cases how <;> exact ⟨rfl, rfl⟩

theorem Sound.not_isOpen_finish (h : a.Sound passed) (how : Ending) :
    ¬ (a.next (.finish t how)).IsOpen t := by
  by_cases ht : a.IsOpen t
  · rintro ⟨-, mem⟩
    rw [(ledger_finish ht how).1] at mem
    exact ((h t.ledger).nodup.mem_erase_iff.mp mem).1 rfl
  · have e : (a.next (.finish t how)).ledgers t.ledger = a.ledgers t.ledger :=
      (Function.update_self ..).trans (if_neg ht)
    unfold IsOpen
    rwa [e]

/-- A key whose holder ends is nobody's, or goes to one that waited for it. -/
theorem Sound.free_or_handed (h : a.Sound passed) (ht : a.IsOpen t) (past : a.Past passed t key)
    (how : Ending) :
    (∀ s, ¬ ((a.next (.finish t how)).ledgers t.ledger).locks.Holds s key) ∨
      ∃ s, a.Awaits ⟨t.ledger, s⟩ key ∧
        ((a.next (.finish t how)).ledgers t.ledger).locks.Holds s key := by
  have holder : ((a.ledgers t.ledger).locks.lock key).holder = some t.serial :=
    LockTable.holds_iff_lock.mp (h.holds_iff.mpr ⟨ht, past⟩)
  have serves := (h t.ledger).serves key
  simp only [LockTable.holds_iff_lock, (ledger_finish ht how).2, LockTable.lock_release,
    Lock.letGo, if_pos holder, Lock.passOn]
  cases hq : ((a.ledgers t.ledger).locks.lock key).queue with
  | nil => exact .inl fun s hs => by cases hs
  | cons s queue => exact .inr ⟨s, serves.queued s (hq ▸ List.mem_cons_self), rfl⟩

/-! ## Isolation -/

/-- What holds of ledgers at any time; `passed` lists who has got past the wait for which key. -/
structure Isolated (a : Archive) (passed : List (Tx × String)) : Prop where
  /-- A key is held by the open transaction that has got past the wait for it. -/
  holds_iff : ∀ t key, (a.ledgers t.ledger).locks.Holds t.serial key ↔
    a.IsOpen t ∧ a.Past passed t key
  /-- There is one such transaction at most. -/
  one : ∀ t u key, t.ledger = u.ledger → a.IsOpen t ∧ a.Past passed t key →
    a.IsOpen u ∧ a.Past passed u key → t = u
  /-- A call has to wait exactly when another open transaction of its ledger has got past the wait
  for its key. -/
  waits_iff : ∀ t c, a.IsOpen t → (a.outcome t c = none ↔ ∃ key u, c.key? = some key ∧ u ≠ t ∧
    u.ledger = t.ledger ∧ a.IsOpen u ∧ a.Past passed u key)
  /-- A call on another ledger is refused. -/
  foreign : ∀ n t c, t.ledger ≠ n →
    (a.ledgers n).touch t c = some (.error (.backend .foreignTransaction), a.ledgers n)
  /-- A call that has to wait, is made on another ledger or overflows changes no counter and no
  record, now or when its wait is over. -/
  unchanged : ∀ n t c, (a.ledgers n).touch t c = none ∨ t.ledger ≠ n ∨ c.Overflows (a.ledgers n) →
    ∀ m, ((a.next (.touch n t c)).ledgers m).snapshot = (a.ledgers m).snapshot
  unchanged_later : ∀ t c, a.waiting t = some c → c.Overflows (a.ledgers t.ledger) →
    ∀ m, ((a.next (.resume t)).ledgers m).snapshot = (a.ledgers m).snapshot
  /-- From when a transaction gets past the wait for a key until it ends, only its own writes change
  the counter there, unless it is deleted. -/
  stays : ∀ t e, a.IsOpen t → (∀ how, e ≠ .finish t how) → (a.next e).IsOpen t
  kept : ∀ t key e, a.IsOpen t → a.Past passed t key → ¬ a.Writes t key e →
    ((a.next e).ledgers t.ledger).counters[key]? = (a.ledgers t.ledger).counters[key]?
  /-- A transaction that has ended holds no key. -/
  ended : ∀ t how, a.Enabled (.finish t how) → ¬ (a.next (.finish t how)).IsOpen t ∧
    ∀ key, ¬ ((a.next (.finish t how)).ledgers t.ledger).locks.Holds t.serial key
  /-- The keys it held are free, but for those that go to others that waited for them. -/
  freed : ∀ t how key, a.Enabled (.finish t how) → a.IsOpen t → a.Past passed t key →
    (∀ u c, u.ledger = t.ledger → (a.next (.finish t how)).IsOpen u → c.key? = some key →
      (a.next (.finish t how)).outcome u c ≠ none) ∨
    ∃ u, u.ledger = t.ledger ∧ a.Awaits u key ∧ (a.next (.finish t how)).IsOpen u ∧
      (a.next (.finish t how)).Past passed u key

/-- **Key locking isolates transactions**, whatever any number of them have done. -/
theorem Lived.isolated (h : Lived a passed) : a.Isolated passed where
  holds_iff _ _ := h.sound.holds_iff
  one _ _ _ := h.sound.unique
  waits_iff _ _ := h.sound.outcome_eq_none_iff
  foreign _ _ _ ne := Ledger.touch_of_not_isOpen fun ht => ne (h.sound.ledger_eq ht)
  unchanged _ _ _ out :=
    snapshot_next_touch (out.imp_right (Or.imp_left fun ne ht => ne (h.sound.ledger_eq ht)))
  unchanged_later _ _ := h.sound.snapshot_next_resume
  stays _ _ := h.sound.isOpen_next
  kept _ _ _ := h.sound.counter_next
  ended t how enabled := by
    have after : (a.next (.finish t how)).Sound passed := h.sound.step enabled
    have closed := h.sound.not_isOpen_finish (t := t) how
    exact ⟨closed, fun key holds => closed (after.holds_iff.mp holds).1⟩
  freed t how key enabled ht past := by
    have after : (a.next (.finish t how)).Sound passed := h.sound.step enabled
    rcases h.sound.free_or_handed ht past how with free | ⟨s, waits, holds⟩
    · refine .inl fun u c same hu hk out => ?_
      obtain ⟨k, v, hk', -, own, hv⟩ := (after.outcome_eq_none_iff hu).mp out
      obtain rfl : key = k := Option.some.inj (hk.symm.trans hk')
      have holds := after.holds_iff.mpr hv
      rw [own, same] at holds
      exact free v.serial holds
    · exact .inr ⟨⟨t.ledger, s⟩, rfl, waits, after.holds_iff.mp holds⟩

/-- Ledgers without records, with a counter at the largest word. -/
def full : Archive :=
  opening fun _ => { counters := { ("k", ⟨"k", 18446744073709551615, .plain, ⟨0, 0, 0⟩⟩) } }

/-- Two transactions start in ledger 0, and the first adds to the counter, which overflows. -/
def overflowed : Archive :=
  ((full.next (.start 0)).next (.start 0)).next
    (.touch 0 ⟨0, 0⟩ (.increment "k" 1 .plain ⟨0, 0, 0⟩))

theorem lived_overflowed : Lived overflowed [(⟨0, 0⟩, "k")] := by
  have started : Lived ((full.next (.start 0)).next (.start 0)) [] :=
    .step (e := .start 0) (.step (e := .start 0) (.opening _) trivial) trivial
  have passes : ((full.next (.start 0)).next (.start 0)).passes
      (.touch 0 ⟨0, 0⟩ (.increment "k" 1 .plain ⟨0, 0, 0⟩)) = some (⟨0, 0⟩, "k") := by decide
  have step := started.step (e := .touch 0 ⟨0, 0⟩ (.increment "k" 1 .plain ⟨0, 0, 0⟩)) rfl
  rwa [passes] at step

theorem isolated_overflowed : Lived overflowed [(⟨0, 0⟩, "k")] ∧
    overflowed.outcome ⟨0, 1⟩ (.getIn "k") = none ∧
    (overflowed.ledgers 0).snapshot = (full.ledgers 0).snapshot := by
  have isolated := Lived.isolated lived_overflowed
  have open₀ : overflowed.IsOpen ⟨0, 0⟩ := by decide
  have open₁ : overflowed.IsOpen ⟨0, 1⟩ := by decide
  refine ⟨lived_overflowed, (isolated.waits_iff _ _ open₁).mpr ?_, ?_⟩
  · exact ⟨"k", ⟨0, 0⟩, rfl, by decide, rfl, open₀, .inl List.mem_cons_self⟩
  · decide

end Docket.Archive
