import Docket.Issue.Allocate
import Mathlib.Data.Nat.ModEq

/-!
# The cycle of roll numbers

The roll numbers of a day come in a cycle: the sequences from 1 to the last with digit 0, then with
digit 1, and so on to digit 9, and then from the start.

* `Allocation.IsAt`, `RollCycle.Awaits`: the allocation at a position, and a record before one;
* `Awaits.within`, **`Awaits.rotated`**: an addition and a rotation take the position.
-/

namespace Docket

/-- Whether an allocation is the one at a position of the cycle that `top` ends. -/
def Allocation.IsAt (top : UInt64) (q : Nat) (a : Allocation) : Prop :=
  a.sequence.toNat = q % top.toNat + 1 ∧ a.mark = .digit (UInt8.ofNat (q / top.toNat % 10))

namespace RollCycle

def length (top : UInt64) : Nat := 10 * top.toNat

/-- Whether a record, if there is one, carries a decimal digit. -/
def IsRecord (r : Option Counter) : Prop := ∀ c, r = some c → ∃ d : UInt8, d ≤ 9 ∧ c.mark = .digit d

/-- The position that comes after a record. A sequence past the last counts as the last. -/
def place (top : UInt64) : Option Counter → Nat
  | none => 0
  | some c => (c.mark.digit?.getD 0).toNat * top.toNat + min c.sequence.toNat top.toNat

/-- Whether position `q`, full turns aside, comes after a record. -/
def Awaits (top : UInt64) (r : Option Counter) (q : Nat) : Prop :=
  IsRecord r ∧ q ≡ place top r [MOD length top]

variable {top : UInt64} {r : Option Counter} {c c' : Counter} {a b : Allocation} {q q' : Nat}
  {key : String} {now : Time}

theorem isRecord_none : IsRecord none := nofun

theorem awaits_place (h : IsRecord r) : Awaits top r (place top r) := ⟨h, .rfl⟩

/-! ## Positions -/

/-- A position, full turns aside, by what is left of it within a digit and by its digit. -/
theorem mod_length (q : Nat) :
    q % length top = q % top.toNat + top.toNat * (q / top.toNat % 10) := by
  rw [length, Nat.mul_comm, Nat.mod_mul]

theorem modEq_mod_add (q : Nat) :
    q ≡ q / top.toNat % 10 * top.toNat + q % top.toNat [MOD length top] := by
  rw [Nat.mul_comm, Nat.add_comm, ← mod_length]
  exact (Nat.mod_modEq _ _).symm

theorem mod_and_div {d k : Nat} (hd : d < 10) (hk : k < top.toNat)
    (h : q ≡ d * top.toNat + k [MOD length top]) :
    q % top.toNat = k ∧ q / top.toNat % 10 = d := by
  have pos : 0 < top.toNat := by omega
  have lt : d * top.toNat + k < length top := by
    have := Nat.mul_le_mul_right top.toNat (Nat.le_of_lt_succ hd)
    unfold length
    omega
  have sum : q % top.toNat + top.toNat * (q / top.toNat % 10) = k + top.toNat * d := by
    rw [← mod_length, show q % length top = _ from h, Nat.mod_eq_of_lt lt, Nat.mul_comm,
      Nat.add_comm]
  have hmod : q % top.toNat = k := by
    have := congrArg (· % top.toNat) sum
    simpa only [Nat.add_mul_mod_self_left, Nat.mod_mod, Nat.mod_eq_of_lt hk] using this
  refine ⟨hmod, Nat.eq_of_mul_eq_mul_left pos ?_⟩
  omega

theorem isAt_of_modEq {d : UInt8} (hd : d ≤ 9) (hmark : a.mark = .digit d)
    (hpos : 0 < a.sequence.toNat) (hle : a.sequence ≤ top)
    (h : q ≡ d.toNat * top.toNat + (a.sequence.toNat - 1) [MOD length top]) : a.IsAt top q := by
  have hle := UInt64.le_iff_toNat_le.mp hle
  have hd := UInt8.le_iff_toNat_le.mp hd
  obtain ⟨hmod, hdiv⟩ := mod_and_div (Nat.lt_succ_of_le hd) (by omega) h
  refine ⟨by rw [hmod]; omega, ?_⟩
  rw [hmark, hdiv, UInt8.ofNat_toNat]

theorem sequence_le_of_isAt (htop : 1 ≤ top) (h : a.IsAt top q) : a.sequence ≤ top := by
  rw [UInt64.le_iff_toNat_le, h.1]
  exact Nat.mod_lt q (UInt64.le_iff_toNat_le.mp htop)

theorem toNat_ofNat_digit (n : Nat) : (UInt8.ofNat (n % 10)).toNat = n % 10 := by
  rw [UInt8.toNat_ofNat']
  exact Nat.mod_eq_of_lt (by omega)

theorem digit_le_of_isAt {d : UInt8} (h : a.IsAt top q) (hd : a.mark = .digit d) : d ≤ 9 := by
  obtain rfl := Mark.digit.inj (hd.symm.trans h.2)
  rw [UInt8.le_iff_toNat_le, toNat_ofNat_digit]
  exact Nat.le_of_lt_succ (Nat.mod_lt _ (by decide))

theorem eq_of_isAt (ha : a.IsAt top q) (hb : b.IsAt top q) :
    a.sequence = b.sequence ∧ a.mark = b.mark :=
  ⟨UInt64.toNat_inj.mp (ha.1.trans hb.1.symm), ha.2.trans hb.2.symm⟩

theorem modEq_of_isAt (ha : a.IsAt top q) (hb : b.IsAt top q')
    (same : (a.mark, a.sequence) = (b.mark, b.sequence)) : q ≡ q' [MOD length top] := by
  obtain ⟨hmark, hseq⟩ := Prod.mk.inj same
  have hmod := (congrArg UInt64.toNat hseq).symm.trans ha.1
  rw [hb.1] at hmod
  have hdiv := ha.2.symm.trans (hmark.trans hb.2)
  have hdiv := congrArg UInt8.toNat (Mark.digit.inj hdiv)
  rw [toNat_ofNat_digit, toNat_ofNat_digit] at hdiv
  rw [Nat.ModEq, mod_length, mod_length, hdiv]
  omega

/-- **Allocations less than a cycle apart differ.** -/
theorem ne_of_isAt (ha : a.IsAt top q) (hb : b.IsAt top q') (lt : q < q')
    (near : q' < q + length top) : (a.mark, a.sequence) ≠ (b.mark, b.sequence) := by
  intro same
  have dvd := (Nat.modEq_iff_dvd' (Nat.le_of_lt lt)).mp (modEq_of_isAt ha hb same)
  have := Nat.le_of_dvd (by omega) dvd
  omega

/-! ## Records -/

theorem awaits_some_iff : Awaits top (some c) q ↔ ∃ d : UInt8, d ≤ 9 ∧ c.mark = .digit d ∧
    q ≡ d.toNat * top.toNat + min c.sequence.toNat top.toNat [MOD length top] := by
  constructor
  · rintro ⟨record, h⟩
    obtain ⟨d, hd, mark⟩ := record c rfl
    rw [place, mark] at h
    exact ⟨d, hd, mark, h⟩
  · rintro ⟨d, hd, mark, h⟩
    refine ⟨fun c' e => ⟨d, hd, Option.some.inj e ▸ mark⟩, ?_⟩
    rw [place, mark]
    exact h

theorem Awaits.getD (h : Awaits top r q) :
    Awaits top (some (r.getD ⟨key, 0, .digit 0, now⟩)) q := by
  cases r with
  | some c => exact h
  | none =>
    refine awaits_some_iff.mpr ⟨0, by decide, rfl, ?_⟩
    simpa [place] using h.2

/-- A record that says what the allocation at a position says comes before the next one. -/
theorem awaits_of_isAt (htop : 1 ≤ top) (ha : a.IsAt top q) (sequence : c.sequence = a.sequence)
    (mark : c.mark = a.mark) : Awaits top (some c) (q + 1) := by
  have lt : q % top.toNat + 1 ≤ top.toNat := Nat.mod_lt q (UInt64.le_iff_toNat_le.mp htop)
  have hd := mark.trans ha.2
  refine awaits_some_iff.mpr ⟨_, digit_le_of_isAt ha ha.2, hd, ?_⟩
  rw [sequence, ha.1, toNat_ofNat_digit, Nat.min_eq_left lt, ← Nat.add_assoc]
  exact (modEq_mod_add q).add_right 1

theorem Awaits.within (h : Awaits top (some c) q) (mark : a.mark = c.mark)
    (sequence : a.sequence.toNat = c.sequence.toNat + 1) (le : a.sequence ≤ top) :
    a.IsAt top q := by
  obtain ⟨d, hd, hmark, h⟩ := awaits_some_iff.mp h
  have le' := UInt64.le_iff_toNat_le.mp le
  rw [Nat.min_eq_left (by omega)] at h
  refine isAt_of_modEq hd (mark.trans hmark) (by omega) le ?_
  rwa [sequence, Nat.add_sub_cancel]

/-- An addition that goes past the last sequence leaves the position to be taken. -/
theorem Awaits.past (h : Awaits top (some c) q) (mark : c'.mark = c.mark)
    (sequence : c'.sequence.toNat = c.sequence.toNat + 1) (lt : top < c'.sequence) :
    Awaits top (some c') q := by
  obtain ⟨d, hd, hmark, h⟩ := awaits_some_iff.mp h
  have lt := UInt64.lt_iff_toNat_lt.mp lt
  refine awaits_some_iff.mpr ⟨d, hd, mark.trans hmark, ?_⟩
  rw [Nat.min_eq_right (by omega)] at h ⊢
  exact h

theorem toNat_nextDigit {d : UInt8} (hd : d ≤ 9) :
    (Series.nextDigit d).toNat = (d.toNat + 1) % 10 := by
  have : d.toNat ≤ 9 := UInt8.le_iff_toNat_le.mp hd
  rw [Series.nextDigit, UInt8.toNat_mod, UInt8.toNat_add]
  show (d.toNat + 1) % 256 % 10 = _
  rw [Nat.mod_eq_of_lt (show d.toNat + 1 < 256 by omega)]

theorem nextDigit_le (d : UInt8) : Series.nextDigit d ≤ 9 := by
  rw [UInt8.le_iff_toNat_le, Series.nextDigit, UInt8.toNat_mod]
  exact Nat.le_of_lt_succ (Nat.mod_lt _ (by decide))

/-- **A rotation** past the last sequence takes the position, which is the first with the next
digit. -/
theorem Awaits.rotated {d : UInt8} (htop : 1 ≤ top) (h : Awaits top (some c) q)
    (hmark : c.mark = .digit d) (le : top.toNat ≤ c.sequence.toNat)
    (mark : a.mark = .digit (Series.nextDigit d)) (sequence : a.sequence = 1) : a.IsAt top q := by
  obtain ⟨d', hd, hmark', h⟩ := awaits_some_iff.mp h
  obtain rfl : d' = d := Mark.digit.inj (hmark'.symm.trans hmark)
  rw [Nat.min_eq_right le] at h
  have next : q ≡ (Series.nextDigit d').toNat * top.toNat [MOD length top] := by
    refine h.trans ?_
    rw [toNat_nextDigit hd, ← Nat.succ_mul, Nat.ModEq, length, Nat.mul_mod_mul_right,
      Nat.mul_mod_mul_right, Nat.mod_mod]
  refine isAt_of_modEq (nextDigit_le _) mark (by simp [sequence]) (by rwa [sequence]) ?_
  rw [sequence]
  exact next

end RollCycle

end Docket
