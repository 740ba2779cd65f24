import Docket.Identifier.Segment
import Docket.Proofs.Calendar.Months
import Mathlib

/-!
# Segments read back

* **`Segment.split_intercalate`**, **`Segment.readSequence?_padded`**: segments with dashes between
  them are told apart, and a padded sequence is read back;
* `IsDayStamp`, **`Date.isDayStamp_dayKey`**, `Date.Valid.isDayStamp`: the stamp of a day is six
  decimal digits.
-/

namespace Docket

namespace Decimal

theorem width_le_iff {n k : Nat} (pos : 0 < k) : width n ≤ k ↔ n < 10 ^ k :=
  Nat.length_toDigits_le_iff (by decide) pos

theorem width_word_le (n : UInt64) : width n.toNat ≤ 20 :=
  (width_le_iff (by decide)).mpr (Nat.lt_of_lt_of_le n.toNat_lt (by decide))

theorem length_padded_of_lt {w n : Nat} (pos : 0 < w) (h : n < 10 ^ w) :
    (padded w n).length = w := by
  rw [length_padded]
  exact Nat.max_eq_left ((width_le_iff pos).mpr h)

/-- The bounds of the digits in numerals, as arithmetic needs them. -/
theorem toNat_of_isDigit {c : Char} (h : c.isDigit = true) : 48 ≤ c.toNat ∧ c.toNat ≤ 57 :=
  Char.isDigit_iff_toNat.mp h

theorem dash_notMem_digits (n : Nat) : '-' ∉ digits n := by
  intro h
  exact absurd (isDigit_of_mem_digits h) (by decide)

theorem dash_notMem_padded (w n : Nat) : '-' ∉ padded w n := by
  intro h
  exact absurd (isDigit_of_mem_padded h) (by decide)

end Decimal

namespace Segment

theorem check_eq_ok_iff {name value : String} :
    check name value = .ok () ↔ value.toList ≠ [] ∧ '-' ∉ value.toList := by
  unfold check
  split
  · next empty => simp [String.isEmpty_iff.mp empty]
  · next ne =>
    have ne : value.toList ≠ [] := by simpa [String.isEmpty_iff] using ne
    rw [String.contains_char_eq]
    split <;> simp_all

theorem checkPadding_eq_ok_iff {width : Nat} :
    checkPadding width = .ok () ↔ 1 ≤ width ∧ width ≤ maxPadding := by
  unfold checkPadding
  split
  · exact ⟨nofun, fun h => by omega⟩
  · exact ⟨fun _ => by omega, fun _ => rfl⟩

theorem checkWidth_eq_ok_iff {sequence : UInt64} {width : Nat} :
    checkWidth sequence width = .ok () ↔ Decimal.width sequence.toNat ≤ width := by
  unfold checkWidth
  split
  · next lt => exact ⟨nofun, fun le => absurd lt (Nat.not_lt.mpr le)⟩
  · next le => exact ⟨fun _ => Nat.not_lt.mp le, fun _ => rfl⟩

theorem width_le_widened (sequence : UInt64) (width : Nat) :
    Decimal.width sequence.toNat ≤ widened sequence width := Nat.le_max_right ..

theorem widened_mem {width : Nat} (pos : 1 ≤ width) (le : width ≤ maxPadding) (sequence : UInt64) :
    1 ≤ widened sequence width ∧ widened sequence width ≤ maxPadding :=
  ⟨Nat.le_trans pos (Nat.le_max_left ..), Nat.max_le.mpr ⟨le, Decimal.width_word_le sequence⟩⟩

theorem split_intercalate {text : String} {segments : List (List Char)} (ne : segments ≠ [])
    (dash : ∀ s ∈ segments, '-' ∉ s) (h : text.toList = ['-'].intercalate segments) :
    split text = segments := by
  rw [split, h]
  exact List.splitOn_intercalate '-' dash ne

theorem readSequence?_padded (width : Nat) (n : UInt64) :
    readSequence? (Decimal.padded width n.toNat) = some n := by
  rw [readSequence?, Decimal.read?_padded]
  show (if n.toNat < UInt64.size then some (UInt64.ofNat n.toNat) else none) = some n
  rw [if_pos n.toNat_lt, UInt64.ofNat_toNat]

end Segment

/-! ## Stamps -/

/-- Whether a text is exactly six decimal digits, as the stamp of a day is. -/
def IsDayStamp (s : String) : Prop := s.toList.length = 6 ∧ ∀ c ∈ s.toList, c.isDigit = true

instance : DecidablePred IsDayStamp := fun s => by unfold IsDayStamp; infer_instance

namespace Date

theorem shortYear_lt (d : Date) : d.shortYear < 100 := by
  unfold shortYear
  omega

theorem isDayStamp_of_le {d : Date} (month : d.month ≤ 12) (day : d.day ≤ 31) :
    IsDayStamp d.dayKey := by
  constructor
  · rw [dayKey, String.toList_ofList, List.length_append, List.length_append,
      Decimal.length_padded_of_lt (by decide) (shortYear_lt _),
      Decimal.length_padded_of_lt (by decide) (by omega),
      Decimal.length_padded_of_lt (by decide) (by omega)]
  · intro c hc
    rw [dayKey, String.toList_ofList, List.mem_append, List.mem_append] at hc
    rcases hc with (hc | hc) | hc <;> exact Decimal.isDigit_of_mem_padded hc

theorem isDayStamp_dayKey (n : Int) : IsDayStamp (ofDayNumber n).dayKey :=
  isDayStamp_of_le (month_mem n).2 (day_mem n).2

theorem daysIn_le (year : Int) (month : Nat) : daysIn year month ≤ 31 := by
  unfold daysIn
  split
  · split <;> decide
  all_goals decide

theorem Valid.isDayStamp {d : Date} (h : d.Valid) : IsDayStamp d.dayKey :=
  isDayStamp_of_le h.2.2.2.1 (Nat.le_trans h.2.2.2.2.2 (daysIn_le _ _))

end Date

namespace IsDayStamp

variable {s : String}

theorem ne_nil (h : IsDayStamp s) : s.toList ≠ [] := by
  intro e
  have := h.1
  rw [e] at this
  cases this

theorem dash_notMem (h : IsDayStamp s) : '-' ∉ s.toList := by
  intro mem
  exact absurd (h.2 _ mem) (by decide)

theorem check (h : IsDayStamp s) (name : String) : Segment.check name s = .ok () :=
  Segment.check_eq_ok_iff.mpr ⟨h.ne_nil, h.dash_notMem⟩

end IsDayStamp

end Docket
