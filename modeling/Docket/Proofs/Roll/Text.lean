import Docket.Proofs.Identifier.Segments
import Docket.Proofs.Roll.Cycle
import Mathlib.Data.List.Basic

/-!
# Writing roll numbers

* `RollNumber.format_eq_ok_iff`: when a roll number is written, and as what;
* **`RollCycle.text_eq_iff`**: positions are written the same exactly if they are full turns apart.
-/

namespace Docket

namespace Decimal

theorem padded_inj {v w m n : Nat} (h : padded v m = padded w n) : m = n := by
  have := congrArg read? h
  rwa [read?_padded, read?_padded, Option.some.injEq] at this

theorem digits_inj {m n : Nat} (h : digits m = digits n) : m = n := by
  have zero (k : Nat) : padded 0 k = digits k := by rw [padded_eq, Nat.zero_sub]; rfl
  exact padded_inj (v := 0) (w := 0) (by rw [zero, zero, h])

end Decimal

theorem Date.check_dayKey (d : Date) (name : String) : Segment.check name d.dayKey = .ok () := by
  refine Segment.check_eq_ok_iff.mpr ⟨fun e => ?_, ?_⟩
  · have := congrArg List.length e
    simp [dayKey] at this
  · simp [dayKey, Decimal.dash_notMem_padded]

namespace RollNumber

theorem radix_le_iff {digit : UInt8} : radix ≤ digit ↔ ¬ digit ≤ 9 := by
  rw [UInt8.le_iff_toNat_le, UInt8.le_iff_toNat_le]
  exact Nat.not_le.symm

theorem not_radix_le {digit : UInt8} (h : digit ≤ 9) : ¬ radix ≤ digit :=
  fun le => radix_le_iff.mp le h

/-- **A roll number is written** exactly if its parts can be told apart. -/
theorem format_eq_ok_iff {r : RollNumber} {id : String} :
    r.format = .ok id ↔ (r.period.toList ≠ [] ∧ '-' ∉ r.period.toList) ∧ r.digit ≤ 9 ∧
      r.sequence ≤ 99 ∧ r.text = id := by
  rw [format, bind_eq_ok_iff]
  simp only [guard_eq_ok_iff, radix_le_iff, Classical.not_not, UInt64.not_lt]
  constructor
  · rintro ⟨_, period, digit, sequence, h⟩
    exact ⟨Segment.check_eq_ok_iff.mp period, digit, sequence, Except.ok.inj h⟩
  · rintro ⟨period, digit, sequence, rfl⟩
    exact ⟨(), Segment.check_eq_ok_iff.mpr period, digit, sequence, rfl⟩

theorem format_ok {r : RollNumber} (period : ∀ name, Segment.check name r.period = .ok ())
    (digit : r.digit ≤ 9) (sequence : r.sequence ≤ 99) : r.format = .ok r.text :=
  format_eq_ok_iff.mpr ⟨Segment.check_eq_ok_iff.mp (period ""), digit, sequence, rfl⟩

theorem text_inj {r r' : RollNumber} (period : r.period = r'.period) (h : r.text = r'.text) :
    r.digit = r'.digit ∧ r.sequence = r'.sequence := by
  have h := congrArg String.toList h
  simp only [text, period, Decimal.text, Segment.padded, String.append_assoc, String.toList_append,
    String.toList_ofList] at h
  have h : _ ++ '-' :: _ = _ ++ '-' :: _ := List.append_cancel_left (List.append_cancel_left h)
  obtain ⟨digit, -, sequence⟩ := (List.append_cons_inj_of_notMem (Decimal.dash_notMem_digits _)
    (Decimal.dash_notMem_padded _ _)).mp h
  exact ⟨UInt8.toNat_inj.mp (Decimal.digits_inj digit),
    UInt64.toNat_inj.mp (Decimal.padded_inj sequence)⟩

end RollNumber

namespace RollCycle

variable {period : String} {top : UInt64} {l : RollSettings} {now : Time} {q q' : Nat}
  {a : Allocation} {id : String}

/-! ## The roll numbers of a period -/

def number (period : String) (top : UInt64) (q : Nat) : RollNumber :=
  ⟨period, UInt8.ofNat (q / top.toNat % 10), UInt64.ofNat (q % top.toNat + 1)⟩

theorem number_isAt (period : String) (htop : 1 ≤ top) (q : Nat) :
    Allocation.IsAt top q ⟨period, (number period top q).sequence,
      .digit (number period top q).digit, false⟩ := by
  have lt := Nat.mod_lt q (UInt64.le_iff_toNat_le.mp htop)
  have := top.toNat_lt
  refine ⟨?_, rfl⟩
  rw [number, UInt64.toNat_ofNat']
  exact Nat.mod_eq_of_lt (by omega)

theorem number_of_isAt {d : UInt8} (htop : 1 ≤ top) (h : a.IsAt top q) (mark : a.mark = .digit d) :
    RollNumber.mk period d a.sequence = number period top q := by
  obtain ⟨sequence, mark'⟩ := eq_of_isAt h (number_isAt period htop q)
  obtain rfl := Mark.digit.inj (mark.symm.trans mark')
  exact congrArg (RollNumber.mk period _) sequence

/-- **Roll numbers are written the same** exactly if they are full turns apart. -/
theorem text_eq_iff (htop : 1 ≤ top) :
    (number period top q).text = (number period top q').text ↔ q ≡ q' [MOD length top] := by
  constructor
  · intro h
    have segment : (number period top q).period = (number period top q').period := rfl
    obtain ⟨digit, sequence⟩ := RollNumber.text_inj segment h
    exact modEq_of_isAt (number_isAt period htop q) (number_isAt period htop q')
      (Prod.ext (congrArg Mark.digit digit) sequence)
  · intro h
    obtain ⟨hmod, hdiv⟩ := mod_and_div (Nat.mod_lt _ (by decide))
      (Nat.mod_lt q' (UInt64.le_iff_toNat_le.mp htop)) (h.trans (modEq_mod_add q'))
    rw [number, number, hmod, hdiv]

theorem format_number (segment : ∀ name, Segment.check name period = .ok ()) (htop : 1 ≤ top)
    (hle : top ≤ 99) (q : Nat) : (number period top q).format = .ok (number period top q).text :=
  RollNumber.format_ok segment (digit_le_of_isAt (number_isAt period htop q) rfl)
    (UInt64.le_trans (sequence_le_of_isAt htop (number_isAt period htop q)) hle)

/-- **An allocation in turn** can be written. -/
theorem format_of_isAt (htop : 1 ≤ l.maxSequence) (hle : l.maxSequence ≤ 99)
    (hkey : a.key = (Series.roll l).key now) (isAt : a.IsAt l.maxSequence q) :
    (Series.roll l).format a [] = .ok (number ((Series.roll l).key now) l.maxSequence q).text := by
  simp only [Series.format, isAt.2, Mark.digit?]
  rw [number_of_isAt htop isAt isAt.2, hkey]
  exact format_number (Date.check_dayKey now.date) htop hle q

theorem digit_of_format {words : List UInt64} (h : (Series.roll l).format a words = .ok id) :
    ∃ d : UInt8, d ≤ 9 ∧ a.mark = .digit d := by
  cases hm : a.mark with
  | digit d =>
    simp only [Series.format, hm, Mark.digit?] at h
    exact ⟨d, (RollNumber.format_eq_ok_iff.mp h).2.1, rfl⟩
  | _ =>
    simp only [Series.format, hm, Mark.digit?] at h
    cases h

end RollCycle

end Docket
