import Docket.Proofs.Forecast.Agrees
import Docket.Proofs.Identifier.ReadBack

/-!
# Forecasts in closed form

A forecast is made entry by entry, and yet each entry can be told from where the forecast opens and
from its index alone.

* **`Forecast.simulate_closed`**: which forecasts are made, and every entry of them.
-/

namespace Docket.Forecast

variable {period id : String} {top sequence : UInt64} {digit : UInt8} {count index q i : Nat}
  {es : List Entry} {e : Entry}

/-! ## Where a forecast opens -/

/-- The sequence and the digit at which a forecast opens. A start at 0 counts as one at 1, and one
past the last sequence moves on to the next digit. -/
def opening (top sequence digit : Nat) : Nat × Nat :=
  if max sequence 1 ≤ top then (max sequence 1, digit) else (1, (digit + 1) % 10)

theorem toNat_max_one : (max sequence 1).toNat = max sequence.toNat 1 := UInt64.toNat_max ..

theorem settle_opening (top sequence : UInt64) (hd : digit ≤ 9) :
    ((settle top (max sequence 1) digit).1.toNat, (settle top (max sequence 1) digit).2.toNat) =
      opening top.toNat sequence.toNat digit.toNat := by
  unfold settle opening
  by_cases past : top < max sequence 1
  · have lt := UInt64.lt_iff_toNat_lt.mp past
    rw [toNat_max_one] at lt
    rw [if_pos past, if_neg (Nat.not_le.mpr lt)]
    exact Prod.ext rfl (RollCycle.toNat_nextDigit hd)
  · have le := UInt64.le_iff_toNat_le.mp (UInt64.not_lt.mp past)
    rw [toNat_max_one] at le
    rw [if_neg past, if_pos le]
    exact Prod.ext toNat_max_one rfl

theorem opening_mem {top digit : Nat} (sequence : Nat) (htop : 1 ≤ top) (hd : digit ≤ 9) :
    (1 ≤ (opening top sequence digit).1 ∧ (opening top sequence digit).1 ≤ top) ∧
      (opening top sequence digit).2 ≤ 9 := by
  unfold opening
  split
  · next le => exact ⟨⟨le_max_right _ _, le⟩, hd⟩
  · exact ⟨⟨Nat.le_refl 1, htop⟩, Nat.le_of_lt_succ (Nat.mod_lt _ (by decide))⟩

/-! ## Entries -/

theorem entries_index (h : entries period top count index sequence digit = .ok es)
    (he : es[i]? = some e) : e.index = index + i := by
  induction count generalizing es index sequence digit i with
  | zero =>
    cases h
    cases he
  | succ count ih =>
    obtain ⟨id, -, h⟩ := bind_eq_ok_iff.mp h
    obtain ⟨rest, run, h⟩ := bind_eq_ok_iff.mp h
    cases h
    cases i with
    | zero =>
      cases he
      rfl
    | succ i => rw [ih run he, Nat.add_assoc, Nat.add_comm 1 i]

theorem format_of_entries (h : entries period top (count + 1) index sequence digit = .ok es) :
    ∃ id, RollNumber.format ⟨period, digit, sequence⟩ = .ok id := by
  obtain ⟨id, written, -⟩ := bind_eq_ok_iff.mp h
  exact ⟨id, written⟩

theorem simulate_eq_entries (pos : 0 < count)
    (h : simulate period count sequence digit top = .ok es) :
    digit ≤ 9 ∧ (1 ≤ top ∧ top ≤ 99) ∧
      entries period top count 1 (settle top (max sequence 1) digit).1
        (settle top (max sequence 1) digit).2 = .ok es := by
  unfold simulate at h
  rw [if_neg (Nat.ne_of_gt pos)] at h
  split at h
  · cases h
  · next small =>
    split at h
    · cases h
    · next within =>
      obtain ⟨ne, le⟩ := not_or.mp within
      have pos : 0 < top.toNat := Nat.pos_of_ne_zero fun zero => ne (UInt64.toNat_inj.mp zero)
      exact ⟨Classical.not_not.mp (mt RollNumber.radix_le_iff.mpr small),
        ⟨UInt64.le_iff_toNat_le.mpr pos, UInt64.not_lt.mp le⟩, h⟩

/-! ## In closed form -/

theorem isAt_mul_add {a : Allocation} {d k : Nat} (htop : 1 ≤ top.toNat)
    (h : a.IsAt top (d * top.toNat + k)) :
    a.sequence.toNat = k % top.toNat + 1 ∧
      a.mark = .digit (UInt8.ofNat ((d + k / top.toNat) % 10)) := by
  obtain ⟨sequence, mark⟩ := h
  rw [Nat.mul_comm] at sequence mark
  rw [Nat.mul_add_mod] at sequence
  rw [Nat.mul_add_div htop] at mark
  exact ⟨sequence, mark⟩

/-- The position at which a forecast opens. -/
def position (top sequence digit : Nat) : Nat :=
  (opening top sequence digit).2 * top + ((opening top sequence digit).1 - 1)

theorem settle_isAt_position (period : String) (sequence : UInt64) (htop : 1 ≤ top)
    (hd : digit ≤ 9) :
    Allocation.IsAt top (position top.toNat sequence.toNat digit.toNat)
      ⟨period, (settle top (max sequence 1) digit).1,
        .digit (settle top (max sequence 1) digit).2, false⟩ := by
  have opens := settle_opening top sequence hd
  have hsequence := congrArg Prod.fst opens
  have hdigit := congrArg Prod.snd opens
  obtain ⟨⟨pos, le⟩, small⟩ := opening_mem sequence.toNat
    (UInt64.le_iff_toNat_le.mp htop) (UInt8.le_iff_toNat_le.mp hd)
  rw [← hsequence] at pos le
  rw [← hdigit] at small
  refine RollCycle.isAt_of_modEq (UInt8.le_iff_toNat_le.mpr small) rfl pos
    (UInt64.le_iff_toNat_le.mpr le) ?_
  rw [position, ← hsequence, ← hdigit]

theorem exists_simulate (sequence : UInt64) (pos : 0 < count) (hd : digit ≤ 9) (htop : 1 ≤ top)
    (hle : top ≤ 99) (segment : ∀ name, Segment.check name period = .ok ()) :
    ∃ es, simulate period count sequence digit top = .ok es ∧ es.length = count ∧
      ∀ i (e : Entry), es[i]? = some e → e.index = i + 1 ∧ e.period = period ∧
        e.allocation.IsAt top (position top.toNat sequence.toNat digit.toNat + i) ∧
        RollNumber.format ⟨period, e.digit, e.sequence⟩ = .ok e.id := by
  obtain ⟨es, run, length, all⟩ := entries_eval segment htop hle count 1
    (settle_isAt_position period sequence htop hd)
  have ne : top ≠ 0 := by
    rintro rfl
    exact absurd htop (by decide)
  refine ⟨es, ?_, length, fun i e he => ?_⟩
  · unfold simulate
    rw [if_neg (Nat.ne_of_gt pos), if_neg (RollNumber.not_radix_le hd),
      if_neg (show ¬ (top = 0 ∨ RollNumber.maxSequence < top) from
        not_or.mpr ⟨ne, UInt64.not_lt.mpr hle⟩)]
    exact run
  · rw [Nat.add_comm i 1]
    exact ⟨entries_index run he, all i e he⟩

/-- Entries are written the same exactly if they are full turns of all digits apart. -/
theorem id_eq_iff {e e' : Entry} {j : Nat} (htop : 1 ≤ top)
    (h : e.allocation.IsAt top (q + i)) (h' : e'.allocation.IsAt top (q + j))
    (written : RollNumber.format ⟨period, e.digit, e.sequence⟩ = .ok e.id)
    (written' : RollNumber.format ⟨period, e'.digit, e'.sequence⟩ = .ok e'.id) :
    e.id = e'.id ↔ i ≡ j [MOD 10 * top.toNat] := by
  have number : RollNumber.mk period e.digit e.sequence = RollCycle.number period top (q + i) :=
    RollCycle.number_of_isAt htop h rfl
  have number' : RollNumber.mk period e'.digit e'.sequence = RollCycle.number period top (q + j) :=
    RollCycle.number_of_isAt htop h' rfl
  obtain ⟨-, -, -, text⟩ := RollNumber.format_eq_ok_iff.mp written
  obtain ⟨-, -, -, text'⟩ := RollNumber.format_eq_ok_iff.mp written'
  rw [← text, ← text', number, number', RollCycle.text_eq_iff htop]
  exact ⟨Nat.ModEq.add_left_cancel' q, fun h => h.add_left q⟩

/-- **The closed form of a forecast** of something. It is made exactly if the digit is a decimal
digit, the last sequence has two digits at most, and the period can be told apart in a roll number.
Then an entry has the period and its index, the sequence and the digit that are as far from the
opening as its index says, and a roll number that is read as these; and entries have the same roll
number exactly if they are full turns of all digits apart. -/
theorem simulate_closed (period : String) (sequence top : UInt64) (digit : UInt8)
    (pos : 0 < count) :
    ((∃ es, simulate period count sequence digit top = .ok es) ↔
      digit ≤ 9 ∧ (1 ≤ top ∧ top ≤ 99) ∧ period.toList ≠ [] ∧ '-' ∉ period.toList) ∧
    ∀ es, simulate period count sequence digit top = .ok es →
      let start := opening top.toNat sequence.toNat digit.toNat
      es.length = count ∧
      (∀ i (e : Entry), es[i]? = some e → e.index = i + 1 ∧ e.period = period ∧
        e.sequence.toNat = (start.1 - 1 + i) % top.toNat + 1 ∧
        e.digit.toNat = (start.2 + (start.1 - 1 + i) / top.toNat) % 10 ∧
        RollNumber.parse e.id = .ok ⟨period, e.digit, e.sequence⟩) ∧
      ∀ i j (e e' : Entry), es[i]? = some e → es[j]? = some e' →
        (e.id = e'.id ↔ i ≡ j [MOD 10 * top.toNat]) := by
  have accepted {es : List Entry} (h : simulate period count sequence digit top = .ok es) :
      digit ≤ 9 ∧ (1 ≤ top ∧ top ≤ 99) ∧ period.toList ≠ [] ∧ '-' ∉ period.toList := by
    obtain ⟨hd, within, run⟩ := simulate_eq_entries pos h
    obtain ⟨n, rfl⟩ := Nat.exists_eq_succ_of_ne_zero (Nat.ne_of_gt pos)
    obtain ⟨id, written⟩ := format_of_entries run
    exact ⟨hd, within, (RollNumber.format_eq_ok_iff.mp written).1⟩
  refine ⟨⟨fun ⟨es, h⟩ => accepted h, fun ⟨hd, ⟨htop, hle⟩, apart⟩ => ?_⟩, fun es h => ?_⟩
  · obtain ⟨es, run, -⟩ := exists_simulate sequence pos hd htop hle
      fun name => Segment.check_eq_ok_iff.mpr apart
    exact ⟨es, run⟩
  · obtain ⟨hd, ⟨htop, hle⟩, apart⟩ := accepted h
    obtain ⟨es', run, length, all⟩ := exists_simulate sequence pos hd htop hle
      fun name => Segment.check_eq_ok_iff.mpr apart
    obtain rfl := Except.ok.inj (run.symm.trans h)
    refine ⟨length, fun i e he => ?_, fun i j e e' he he' => ?_⟩
    · obtain ⟨index, hperiod, isAt, written⟩ := all i e he
      rw [position, Nat.add_assoc] at isAt
      obtain ⟨hsequence, mark⟩ := isAt_mul_add (UInt64.le_iff_toNat_le.mp htop) isAt
      refine ⟨index, hperiod, hsequence, ?_, RollNumber.parse_of_format written⟩
      rw [Mark.digit.inj mark, RollCycle.toNat_ofNat_digit]
    · obtain ⟨-, -, isAt, written⟩ := all i e he
      obtain ⟨-, -, isAt', written'⟩ := all j e' he'
      exact id_eq_iff htop isAt isAt' written written'

/-- A forecast that opens at the last sequence of the last digit goes on with the first of the
first. -/
theorem simulate_closed_wraps :
    (∃ es, simulate "250314" 2 99 9 99 = .ok es) ∧
      ∀ es, simulate "250314" 2 99 9 99 = .ok es → ∀ e, es[1]? = some e →
        e.sequence = 1 ∧ e.digit = 0 ∧ RollNumber.parse e.id = .ok ⟨"250314", 0, 1⟩ := by
  obtain ⟨made, all⟩ := simulate_closed "250314" 99 99 9 (show 0 < 2 by decide)
  refine ⟨made.mpr (by decide), fun es h e he => ?_⟩
  obtain ⟨-, entry, -⟩ := all es h
  obtain ⟨-, -, sequence, digit, read⟩ := entry 1 e he
  have sequence : e.sequence = 1 := UInt64.toNat_inj.mp sequence
  have digit : e.digit = 0 := UInt8.toNat_inj.mp digit
  rw [sequence, digit] at read
  exact ⟨sequence, digit, read⟩

end Docket.Forecast
