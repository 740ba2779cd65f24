import Docket.Ledger.Lock

/-!
# Who holds a key

* `LockTable.Holds.unique`: a key has one holder at most;
* `LockTable.Holds.take?`, `LockTable.Holds.join`, `LockTable.Holds.leave`,
  **`LockTable.Holds.release`**: nothing that another transaction does takes a key away from its
  holder; `LockTable.release_of_not_holds`: who holds nothing lets go of nothing.
-/

namespace Docket.LockTable

variable {table table' : LockTable} {t u : Nat} {key other : String}

theorem holds_iff : table.Holds t key ↔ ∃ l, table[key]? = some l ∧ l.holder = some t := by
  unfold Holds
  rw [Option.bind_eq_some_iff]

theorem Holds.unique (ht : table.Holds t key) (hu : table.Holds u key) : t = u :=
  Option.some.inj (Eq.trans (Eq.symm ht) hu)

/-! ## Taking a key -/

theorem take?_eq_some (h : table.take? t key = some table') :
    (table' = table ∧ table.Holds t key) ∨ ∃ l : Lock, l.holder = some t ∧
      table' = table.insert key l ∧ ∀ u, ¬ table.Holds u key := by
  unfold take? at h
  split at h
  · next hk =>
    refine .inr ⟨{ holder := some t }, rfl, (Option.some.inj h).symm, fun u hu => ?_⟩
    obtain ⟨l, hl, -⟩ := holds_iff.mp hu
    rw [hk] at hl; cases hl
  · next l hk =>
    split at h
    · next hh =>
      refine .inr ⟨{ l with holder := some t }, rfl, (Option.some.inj h).symm, fun u hu => ?_⟩
      obtain ⟨l', hl, hu⟩ := holds_iff.mp hu
      rw [hk] at hl; cases hl
      rw [hh] at hu; cases hu
    · next u hh =>
      split at h
      · next e => exact .inl ⟨(Option.some.inj h).symm, holds_iff.mpr ⟨l, hk, e ▸ hh⟩⟩
      · cases h

theorem holds_of_take? (h : table.take? t key = some table') : table'.Holds t key := by
  rcases take?_eq_some h with ⟨rfl, held⟩ | ⟨l, hl, rfl, -⟩
  · exact held
  · exact holds_iff.mpr ⟨l, Std.ExtTreeMap.getElem?_insert_self, hl⟩

theorem Holds.take? (h : table.Holds u other) (ht : table.take? t key = some table') :
    table'.Holds u other := by
  rcases take?_eq_some ht with ⟨rfl, -⟩ | ⟨l, -, rfl, none⟩
  · exact h
  · have ne : key ≠ other := fun e => none u (e ▸ h)
    unfold Holds
    rw [Std.ExtTreeMap.getElem?_insert, if_neg (by simpa using ne)]
    exact h

theorem isSome_take?_iff : (table.take? t key).isSome ↔ ∀ u, table.Holds u key → u = t := by
  constructor
  · intro h u hu
    obtain ⟨table', h⟩ := Option.isSome_iff_exists.mp h
    exact (hu.take? h).unique (holds_of_take? h)
  · intro h
    unfold take?
    split
    · rfl
    · next l hk =>
      split
      · rfl
      · next u hh => rw [if_pos (h u (holds_iff.mpr ⟨l, hk, hh⟩))]; rfl

theorem Holds.take?_eq_none (h : table.Holds u key) (ne : u ≠ t) : table.take? t key = none := by
  rw [← Option.not_isSome_iff_eq_none, isSome_take?_iff]
  exact fun all => ne (all u h)

/-! ## Waiting and ending -/

theorem Holds.join (h : table.Holds u other) : (table.join t key).Holds u other := by
  obtain ⟨l, hl, hu⟩ := holds_iff.mp h
  rw [holds_iff, LockTable.join, Std.ExtTreeMap.getElem?_insert]
  by_cases e : key = other
  · subst e
    exact ⟨{ l with queue := l.queue ++ [t] }, by simp [hl], hu⟩
  · exact ⟨l, by simp [e, hl], hu⟩

theorem Holds.leave (h : table.Holds u other) (ne : u ≠ t) : (table.leave t key).Holds u other := by
  obtain ⟨l, hl, hu⟩ := holds_iff.mp h
  unfold LockTable.leave
  split
  · exact h
  · next l' hk =>
    rw [holds_iff, Std.ExtTreeMap.getElem?_insert]
    by_cases e : key = other
    · subst e
      obtain rfl : l = l' := Option.some.inj (hl.symm.trans hk)
      have : l.holder ≠ some t := by rw [hu]; exact fun e => ne (Option.some.inj e)
      exact ⟨{ l with queue := l.queue.erase t }, by simp [this], hu⟩
    · exact ⟨l, by simp [e, hl], hu⟩

theorem Holds.release (h : table.Holds u other) (ne : u ≠ t) : (table.release t).Holds u other := by
  obtain ⟨l, hl, hu⟩ := holds_iff.mp h
  have : l.holder ≠ some t := by rw [hu]; exact fun e => ne (Option.some.inj e)
  refine holds_iff.mpr ⟨l, ?_, hu⟩
  rw [LockTable.release, Std.ExtTreeMap.getElem?_filterMap', hl]
  simp [this]

theorem release_of_not_holds (none : ∀ key, ¬ table.Holds t key) : table.release t = table := by
  refine Std.ExtTreeMap.ext_getElem? fun {key} => ?_
  rw [release, Std.ExtTreeMap.getElem?_filterMap']
  cases hl : table[key]? with
  | none => rfl
  | some l => exact if_neg fun hh => none key (holds_iff.mpr ⟨l, hl, hh⟩)

/-! ## Keys that nobody else wants -/

def Free (table : LockTable) (key : String) : Prop := ∀ l, table[key]? = some l → l = {}

/-- Whether nobody but `t` holds a key. -/
def Within (table : LockTable) (t : Nat) (key : String) : Prop := ∀ u, table.Holds u key → u = t

def Unawaited (table : LockTable) (key : String) : Prop := ∀ l, table[key]? = some l → l.queue = []

theorem Free.within (h : table.Free key) : table.Within t key := by
  intro u hu
  obtain ⟨l, hl, hu⟩ := holds_iff.mp hu
  obtain rfl := h l hl
  cases hu

theorem Free.unawaited (h : table.Free key) : table.Unawaited key := by
  intro l hl
  rw [h l hl]

theorem Free.take? (h : table.Free other) (ht : table.take? t key = some table')
    (ne : other ≠ key) : table'.Free other := by
  rcases take?_eq_some ht with ⟨rfl, -⟩ | ⟨l, -, rfl, -⟩
  · exact h
  · intro l' hl
    rw [Std.ExtTreeMap.getElem?_insert, if_neg (by simpa using ne.symm)] at hl
    exact h l' hl

theorem Free.release (h : table.Free key) : (table.release t).Free key := by
  intro l hl
  rw [LockTable.release, Std.ExtTreeMap.getElem?_filterMap', Option.bind_eq_some_iff] at hl
  obtain ⟨l', hl', hl⟩ := hl
  obtain rfl := h l' hl'
  exact (Option.some.inj hl).symm

theorem Within.take? (h : table.Within t key) :
    ∃ table', table.take? t key = some table' ∧ table'.Within t key := by
  obtain ⟨table', ht⟩ := Option.isSome_iff_exists.mp (isSome_take?_iff.mpr h)
  exact ⟨table', ht, fun u hu => hu.unique (holds_of_take? ht)⟩

theorem Unawaited.take? (h : table.Unawaited key) (ht : table.take? t key = some table') :
    table'.Unawaited key := by
  intro l hl
  unfold LockTable.take? at ht
  split at ht
  · cases ht
    rw [Std.ExtTreeMap.getElem?_insert_self] at hl
    cases hl
    rfl
  · next l' hk =>
    have := h l' hk
    split at ht
    · cases ht
      rw [Std.ExtTreeMap.getElem?_insert_self] at hl
      cases hl
      exact this
    · split at ht
      · cases ht
        exact h l hl
      · cases ht

theorem Within.release (h : table.Within t key) (un : table.Unawaited key) :
    (table.release t).Free key := by
  intro l hl
  rw [LockTable.release, Std.ExtTreeMap.getElem?_filterMap', Option.bind_eq_some_iff] at hl
  obtain ⟨l', hl', hl⟩ := hl
  rw [un l' hl'] at hl
  split at hl
  · cases hl
  · next ne =>
    obtain rfl := Option.some.inj hl
    have none : l'.holder = none := by
      cases hh : l'.holder with
      | none => rfl
      | some u => exact absurd (h u (holds_iff.mpr ⟨l', hl', hh⟩) ▸ hh) ne
    show Lock.mk l'.holder l'.queue = {}
    rw [none, un l' hl']

end Docket.LockTable
