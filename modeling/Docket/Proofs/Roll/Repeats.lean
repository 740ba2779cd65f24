import Docket.Proofs.Roll.Text
import Mathlib.Data.List.Nodup
import Mathlib.Data.List.Perm.Subperm

/-!
# Repeats among roll numbers

* `RollCycle.stretch`: the roll numbers from a position on, as they are written;
* **`RollCycle.nodup_filter_iff`**: how many roll numbers can be picked from a stretch before one
  comes again.
-/

namespace Docket.RollCycle

variable {period : String} {top : UInt64} {q m : Nat}

/-- Roll numbers from a position on, as they are written. -/
def stretch (period : String) (top : UInt64) (q m : Nat) : List String :=
  (List.range' q m).map fun q => (number period top q).text

theorem length_stretch (period : String) (top : UInt64) (q m : Nat) :
    (stretch period top q m).length = m := by
  rw [stretch, List.length_map, List.length_range']

theorem stretch_succ (period : String) (top : UInt64) (q m : Nat) :
    stretch period top q (m + 1) = (number period top q).text :: stretch period top (q + 1) m := by
  rw [stretch, List.range'_succ, List.map_cons, stretch]

theorem stretch_add (period : String) (top : UInt64) (q m k : Nat) :
    stretch period top q (m + k) = stretch period top q m ++ stretch period top (q + m) k := by
  rw [stretch, ← List.range'_append_1, List.map_append, stretch, stretch]

theorem nodup_stretch (htop : 1 ≤ top) (hm : m ≤ length top) : (stretch period top q m).Nodup := by
  refine List.Nodup.map_on (fun i hi j hj same => ?_) List.nodup_range'
  have hi := List.mem_range'_1.mp hi
  have hj := List.mem_range'_1.mp hj
  refine ((text_eq_iff htop).mp same).eq_of_abs_lt (abs_lt.mpr ?_)
  omega

theorem stretch_subset (htop : 1 ≤ top) :
    stretch period top q m ⊆ stretch period top 0 (length top) := by
  intro id hid
  obtain ⟨i, -, rfl⟩ := List.mem_map.mp hid
  have pos : 0 < length top := Nat.mul_pos (by decide) (UInt64.le_iff_toNat_le.mp htop)
  refine List.mem_map.mpr ⟨i % length top, ?_, (text_eq_iff htop).mpr (Nat.mod_modEq _ _)⟩
  rw [List.mem_range'_1, Nat.zero_add]
  exact ⟨Nat.zero_le _, Nat.mod_lt i pos⟩

/-- **A whole turn** has all roll numbers, wherever it starts. -/
theorem perm_turn (htop : 1 ≤ top) (q : Nat) :
    (stretch period top q (length top)).Perm (stretch period top 0 (length top)) := by
  have nodup : (stretch period top q (length top)).Nodup := nodup_stretch htop (Nat.le_refl _)
  refine (List.Nodup.subperm nodup (stretch_subset htop)).perm_of_length_le ?_
  rw [length_stretch, length_stretch]

/-- What is picked past a whole turn comes on top of what is picked in it. -/
theorem countP_lt_of_lt (htop : 1 ≤ top) {pick : String → Bool} (lt : length top < m)
    (last : ∀ id, (stretch period top q m).getLast? = some id → pick id) :
    (stretch period top 0 (length top)).countP pick < (stretch period top q m).countP pick := by
  -- The stretch is a whole turn, and then something that ends with a pick.
  obtain ⟨k, rfl⟩ := Nat.exists_eq_add_of_lt lt
  rw [Nat.add_assoc, stretch_add] at last ⊢
  have picked := last (number period top (q + length top + k)).text (by
    rw [stretch_add, ← List.append_assoc]
    exact List.getLast?_concat)
  have pos : 0 < (stretch period top (q + length top) (k + 1)).countP pick := by
    refine List.countP_pos_iff.mpr ⟨_, ?_, picked⟩
    rw [stretch_add]
    exact List.mem_append_right _ (List.mem_singleton_self _)
  rw [List.countP_append, (perm_turn htop q).countP_eq]
  omega

/-- **What is picked from a stretch** is free of repeats exactly if there is no more of it than in
one turn, provided that the stretch ends with something picked. -/
theorem nodup_filter_iff (htop : 1 ≤ top) {pick : String → Bool}
    (last : ∀ id, (stretch period top q m).getLast? = some id → pick id) :
    ((stretch period top q m).filter pick).Nodup ↔
      ((stretch period top q m).filter pick).length ≤
        (stretch period top 0 (length top)).countP pick := by
  constructor
  · intro nodup
    rw [List.countP_eq_length_filter]
    exact (List.Nodup.subperm nodup (List.filter_subset pick (stretch_subset htop))).length_le
  · intro le
    by_cases short : m ≤ length top
    · exact (nodup_stretch htop short).filter pick
    · have := countP_lt_of_lt htop (Nat.lt_of_not_le short) last
      rw [List.countP_eq_length_filter (l := stretch period top q m)] at this
      omega

end Docket.RollCycle
