import Docket.Proofs.Callers.Floor
import Docket.Proofs.Ledger.Touches

/-!
# The owner of a key

* `KeyState`, `World.keyState`: the record under a key, the allocations completed under it, and what
  was there before;
* **`World.Kept`**: what a step leaves to the transactions of others. Each of the ledger's
  operations leaves that: `Kept.wrote`, `Kept.start`, `Kept.finish`, `Kept.query`, `Kept.join`,
  `Kept.leave`, `Kept.note`.
-/

namespace Docket

/-- What is under a key: its record, and the allocations completed so far, in order. What was there
before each change is kept, latest first. -/
structure KeyState where
  record : Option Counter
  allotted : List Allocation
  past : List (Option Counter × List Allocation)

namespace KeyState

/-- The state after a change, if it is one. -/
def turned (σ : KeyState) (record : Option Counter) (allotted : List Allocation) : KeyState where
  record := record
  allotted := allotted
  past :=
    if (record, allotted) = (σ.record, σ.allotted) then σ.past
    else (σ.record, σ.allotted) :: σ.past

def after (σ : KeyState) (c : Touch) : KeyState := σ.turned (c.leaves σ.record) σ.allotted

def note (σ : KeyState) (a : Allocation) : KeyState := σ.turned σ.record (σ.allotted ++ [a])

/-- The state after a step to another world. -/
def seen (σ : KeyState) (w : World) (key : String) : KeyState :=
  σ.turned w.ledger.counters[key]? (w.allotted key)

theorem turned_self (σ : KeyState) : σ.turned σ.record σ.allotted = σ := by
  rw [turned, if_pos rfl]

theorem after_of_leaves {σ : KeyState} {c : Touch} (h : c.leaves σ.record = σ.record) :
    σ.after c = σ := by
  rw [after, h, turned_self]

end KeyState

namespace World

/-- What is under a key, as if nothing had been there before. -/
def keyState (w : World) (key : String) : KeyState := ⟨w.ledger.counters[key]?, w.allotted key, []⟩

/-- Whether a state is what is under a key, whatever was there before. -/
def Shows (w : World) (key : String) (σ : KeyState) : Prop :=
  w.ledger.counters[key]? = σ.record ∧ w.allotted key = σ.allotted

def Owns (w : World) (t : Tx) (key : String) : Prop :=
  w.ledger.IsOpen t ∧ w.ledger.locks.Holds t.serial key

/-- Whether no transaction holds a key but perhaps the one in the hands of a caller. -/
def Clear (w : World) (key : String) (hand : Option Tx) : Prop :=
  ∀ t, hand ≠ some t → ¬ w.Owns t key

/-- Worlds that differ neither in the ledger nor in what is noted. -/
structure Still (w w' : World) : Prop where
  ledger : w'.ledger = w.ledger
  notes : w'.notes = w.notes

/-- What a step leaves to all transactions but the one in the hands of its caller. -/
structure Kept (key : String) (hand : Option Tx) (w w' : World) : Prop where
  name : w'.ledger.name = w.ledger.name
  begun : w.ledger.begun ≤ w'.ledger.begun
  isOpen : ∀ t, hand ≠ some t → w.ledger.IsOpen t → w'.ledger.IsOpen t
  owns : ∀ t, hand ≠ some t → w.Owns t key → w'.Owns t key ∧ w'.keyState key = w.keyState key

variable {w w' w'' : World} {t u : Tx} {c : Touch} {locks : LockTable} {key : String}
  {hand : Option Tx} {σ : KeyState}

theorem serial_ne (ht : w.ledger.IsOpen t) (hu : w.ledger.IsOpen u) (ne : some t ≠ some u) :
    u.serial ≠ t.serial := by
  intro e
  refine ne (congrArg some ?_)
  cases t; cases u
  exact congrArg₂ Tx.mk (ht.1.trans hu.1.symm) e.symm

theorem Owns.unique (ht : w.Owns t key) (hu : w.Owns u key) : t = u := by
  by_contra ne
  exact serial_ne ht.1 hu.1 (fun e => ne (Option.some.inj e)) (hu.2.unique ht.2)

/-! ## Worlds and states -/

theorem shows_keyState (w : World) : w.Shows key (w.keyState key) := ⟨rfl, rfl⟩

theorem shows_seen (w : World) (σ : KeyState) : w.Shows key (σ.seen w key) := ⟨rfl, rfl⟩

theorem Shows.seen_of_same (h : w.Shows key σ) (same : w'.keyState key = w.keyState key) :
    σ.seen w' key = σ := by
  obtain ⟨record, allotted, -⟩ := KeyState.mk.inj same
  rw [KeyState.seen, record, allotted, h.1, h.2, KeyState.turned_self]

/-! ## Worlds that stand still -/

theorem still_submit (w : World) (m : Method) (c : Call) : w.Still (w.submit m c).2 := ⟨rfl, rfl⟩

theorem still_logPause (w : World) (span : Span) : w.Still (w.logPause span) := ⟨rfl, rfl⟩

theorem Still.keyState (h : w.Still w') : w'.keyState key = w.keyState key := by
  simp only [World.keyState, allotted, h.ledger, h.notes]

theorem Still.owns (h : w.Still w') : w'.Owns t key ↔ w.Owns t key := by
  rw [Owns, Owns, h.ledger]

theorem Still.kept (h : w.Still w') : w.Kept key hand w' where
  name := by rw [h.ledger]
  begun := Nat.le_of_eq (by rw [h.ledger])
  isOpen t _ ht := by rwa [h.ledger]
  owns t _ ht := ⟨h.owns.mpr ht, h.keyState⟩

theorem Still.trans_kept (s : w.Still w') (h : w'.Kept key hand w'') : w.Kept key hand w'' where
  name := by rw [h.name, s.ledger]
  begun := by rw [← s.ledger]; exact h.begun
  isOpen t ne ht := h.isOpen t ne (by rwa [s.ledger])
  owns t ne ht := by rw [← s.keyState]; exact h.owns t ne (s.owns.mpr ht)

/-! ## Calls in a transaction -/

theorem Shows.seen_wrote (h : w.Shows key σ) (locks : LockTable) (hk : c.key? = some key) :
    σ.seen { w with ledger := w.ledger.wrote c locks } key = σ.after c := by
  rw [KeyState.seen, KeyState.after, ← h.1, ← h.2, ← Ledger.getElem?_counted hk]
  rfl

theorem keyState_wrote_of_ne (w : World) (locks : LockTable) (hk : c.key? ≠ some key) :
    { w with ledger := w.ledger.wrote c locks }.keyState key = w.keyState key := by
  simp only [keyState, Ledger.wrote, Ledger.getElem?_counted_of_ne hk]
  rfl

theorem holds_lockFor? (hl : w.ledger.lockFor? t c = some locks)
    (h : w.ledger.locks.Holds u.serial key) : locks.Holds u.serial key := by
  unfold Ledger.lockFor? at hl
  split at hl
  · exact h.take? hl
  · cases hl; exact h

theorem owns_wrote (ht : w.ledger.IsOpen t) (hl : w.ledger.lockFor? t c = some locks)
    (hk : c.key? = some key) : { w with ledger := w.ledger.wrote c locks }.Owns t key := by
  rw [Ledger.lockFor?, hk] at hl
  exact ⟨ht, LockTable.holds_of_take? hl⟩

/-- Who gets a key was the only one who could have it. -/
theorem clear_of_lockFor? (ht : w.ledger.IsOpen t) (hl : w.ledger.lockFor? t c = some locks)
    (hk : c.key? = some key) : w.Clear key (some t) := by
  intro u ne hu
  rw [Ledger.lockFor?, hk] at hl
  cases (hu.2.take?_eq_none (serial_ne ht hu.1 ne)).symm.trans hl

theorem Kept.wrote (ht : w.ledger.IsOpen t) (hl : w.ledger.lockFor? t c = some locks) :
    w.Kept key (some t) { w with ledger := w.ledger.wrote c locks } where
  name := rfl
  begun := Nat.le_refl _
  isOpen _ _ hu := hu
  owns u ne hu := ⟨⟨hu.1, holds_lockFor? hl hu.2⟩,
    keyState_wrote_of_ne w locks fun hk => clear_of_lockFor? ht hl hk u ne hu⟩

/-! ## The other operations -/

theorem Kept.start : w.Kept key hand { w with ledger := w.ledger.start.2 } where
  name := rfl
  begun := Nat.le_succ _
  isOpen _ _ ht := ⟨ht.1, List.mem_cons_of_mem _ ht.2⟩
  owns _ _ ht := ⟨⟨⟨ht.1.1, List.mem_cons_of_mem _ ht.1.2⟩, ht.2⟩, rfl⟩

theorem Kept.finish {how : Ending} :
    w.Kept key (some t) { w with ledger := w.ledger.finish t how } := by
  unfold Ledger.finish
  split
  · next ht =>
    have stays : ∀ u, some t ≠ some u → w.ledger.IsOpen u →
        u.serial ∈ w.ledger.active.erase t.serial := fun u ne hu =>
      (List.mem_erase_of_ne (serial_ne ht hu ne)).mpr hu.2
    cases how <;> exact {
      name := rfl
      begun := Nat.le_refl _
      isOpen := fun u ne hu => ⟨hu.1, stays u ne hu⟩
      owns := fun u ne hu =>
        ⟨⟨⟨hu.1.1, stays u ne hu.1⟩, hu.2.release (serial_ne ht hu.1 ne)⟩, rfl⟩ }
  · exact Still.kept ⟨rfl, rfl⟩

theorem keyState_finish {how : Ending} :
    { w with ledger := w.ledger.finish t how }.keyState key = w.keyState key := by
  unfold Ledger.finish
  split
  · cases how <;> rfl
  · rfl

theorem keyState_query {q : Query} (hq : q ≠ .remove key) :
    { w with ledger := (w.ledger.query q).2 }.keyState key = w.keyState key := by
  cases q with
  | get => rfl
  | findExisting => rfl
  | remove k =>
    have ne : k ≠ key := fun e => hq (e ▸ rfl)
    simp only [keyState, Ledger.query, Std.ExtTreeMap.getElem?_erase]
    rw [if_neg (by simpa using ne)]
    rfl

theorem Kept.query {q : Query} (hq : q ≠ .remove key) :
    w.Kept key hand { w with ledger := (w.ledger.query q).2 } := by
  have same := keyState_query (w := w) hq
  cases q <;> exact ⟨rfl, Nat.le_refl _, fun _ _ ht => ht, fun _ _ hu => ⟨hu, same⟩⟩

theorem Kept.records {field : String} {values : List String} :
    w.Kept key hand { w with ledger := w.ledger.extendRecords field values } :=
  ⟨rfl, Nat.le_refl _, fun _ _ ht => ht, fun _ _ ht => ⟨ht, rfl⟩⟩

/-! ## Queues -/

theorem Kept.relock (h : ∀ u, hand ≠ some u → w.Owns u key → locks.Holds u.serial key) :
    w.Kept key hand { w with ledger := { w.ledger with locks } } :=
  ⟨rfl, Nat.le_refl _, fun _ _ hu => hu, fun u ne hu => ⟨⟨hu.1, h u ne hu⟩, rfl⟩⟩

theorem isOpen_joinQueue (h : w.ledger.IsOpen u) : (Task.joinQueue w t c).ledger.IsOpen u := by
  unfold Task.joinQueue
  split <;> exact h

theorem Owns.joinQueue (h : w.Owns u key) : (Task.joinQueue w t c).Owns u key := by
  refine ⟨isOpen_joinQueue h.1, ?_⟩
  unfold Task.joinQueue
  split
  · exact h.2.join
  · exact h.2

theorem Kept.join : w.Kept key hand (Task.joinQueue w t c) := by
  unfold Task.joinQueue
  split
  · exact .relock fun u _ hu => hu.2.join
  · exact Still.kept ⟨rfl, rfl⟩

theorem Kept.leave (ht : w.ledger.IsOpen t) : w.Kept key (some t) (Task.leaveQueue w t c) := by
  unfold Task.leaveQueue
  split
  · exact .relock fun u ne hu => hu.2.leave (serial_ne ht hu.1 ne)
  · exact Still.kept ⟨rfl, rfl⟩

theorem keyState_joinQueue : (Task.joinQueue w t c).keyState key = w.keyState key := by
  unfold Task.joinQueue
  split <;> rfl

theorem keyState_leaveQueue : (Task.leaveQueue w t c).keyState key = w.keyState key := by
  unfold Task.leaveQueue
  split <;> rfl

/-! ## Notes -/

variable {a : Allocation}

theorem Shows.seen_note (h : w.Shows key σ) (ha : a.key = key) :
    σ.seen (w.note a) key = σ.note a := by
  rw [KeyState.seen, KeyState.note, ← h.1, ← h.2]
  simp only [allotted, note]
  rw [List.filter_cons_of_pos (by simpa using ha), List.reverse_cons]

theorem keyState_note_of_ne (ha : a.key ≠ key) : (w.note a).keyState key = w.keyState key := by
  simp only [keyState, allotted, note]
  rw [List.filter_cons_of_neg (by simpa using ha)]

/-- Only the owner of a key notes an allocation under it. -/
theorem Kept.note (h : a.key = key → ∃ t, hand = some t ∧ w.Owns t key) :
    w.Kept key hand (w.note a) := by
  refine ⟨rfl, Nat.le_refl _, fun _ _ ht => ht, fun u ne hu =>
    ⟨hu, keyState_note_of_ne fun ha => ?_⟩⟩
  obtain ⟨t, ht, own⟩ := h ha
  exact ne (ht.trans (congrArg some (own.unique hu)))

/-! ## What a call comes to -/

theorem start_cases (w : World) :
    (∃ e w', w.Still w' ∧ w.start = (.answer (.error e), w')) ∨
    (∃ w', w.Still w' ∧ w.start = (.never, w')) ∨
    ∃ w', w.Still w' ∧
      w.start = (.answer (.ok w'.ledger.start.1), { w' with ledger := w'.ledger.start.2 }) := by
  have still := w.still_submit .start .start
  simp only [start]
  split
  · exact .inl ⟨_, _, still, rfl⟩
  · exact .inr (.inl ⟨_, still, rfl⟩)
  · exact .inr (.inr ⟨_, still, rfl⟩)

theorem finish_cases (w : World) (t : Tx) (how : Ending) :
    (∃ w', w.Still w' ∧ w.finish t how = (.never, w')) ∨
    ∃ r how' w', w.Still w' ∧
      w.finish t how = (.answer r, { w' with ledger := w'.ledger.finish t how' }) := by
  have still := w.still_submit how.method (.finish how)
  simp only [finish]
  split
  · exact .inr ⟨_, .abort, _, still, rfl⟩
  · exact .inl ⟨_, still, rfl⟩
  · exact .inr ⟨_, how, _, still, rfl⟩

theorem query_cases (w : World) (q : Query) :
    (∃ e w', w.Still w' ∧ w.query q = (.answer (.error e), w')) ∨
    (∃ w', w.Still w' ∧ w.query q = (.never, w')) ∨
    ∃ w', w.Still w' ∧ w.query q =
      (.answer (.ok (w'.ledger.query q).1), { w' with ledger := (w'.ledger.query q).2 }) := by
  have still := w.still_submit q.method (.query q)
  simp only [query]
  split
  · exact .inl ⟨_, _, still, rfl⟩
  · exact .inr (.inl ⟨_, still, rfl⟩)
  · exact .inr (.inr ⟨_, still, rfl⟩)

theorem still_submitTouch (w : World) (c : Touch) : w.Still (w.submitTouch c).2 := ⟨rfl, rfl⟩

/-- A script answers for the ledger only where no key is needed. -/
theorem key?_of_submitTouch {a : c.Answer}
    (h : w.submitTouch c = (some (.answer (.ok a)), w')) : c.key? = none := by
  simp only [submitTouch, Prod.mk.injEq] at h
  obtain ⟨h, -⟩ := h
  split at h
  · cases h
  · cases h
  · cases c with
    | recorded => rfl
    | _ => cases h
  · cases h

theorem reach_cases (w : World) (t : Tx) (c : Touch) :
    (∃ e, w.reach t c = (.answer (.error e), w)) ∨
    (∃ locks, w.ledger.IsOpen t ∧ w.ledger.lockFor? t c = some locks ∧
      w.reach t c = (.answer (c.answer (w.ledger.record? c) (w.ledger.knows c)),
        { w with ledger := w.ledger.wrote c locks })) ∨
    (w.ledger.IsOpen t ∧ w.ledger.lockFor? t c = none ∧ w.reach t c = (.waits, w)) := by
  unfold reach
  by_cases ht : w.ledger.IsOpen t
  · rw [Ledger.touch_of_isOpen ht]
    cases hl : w.ledger.lockFor? t c with
    | none => exact .inr (.inr ⟨ht, rfl, rfl⟩)
    | some locks => exact .inr (.inl ⟨locks, ht, rfl, rfl⟩)
  · rw [Ledger.touch_of_not_isOpen ht]
    exact .inl ⟨_, rfl⟩

end World

end Docket
