import Docket.Proofs.Issue.Tidy
import Docket.Proofs.Roll.Cycle

/-!
# Allocating roll numbers alone

* `RollCycle.allocate_cases`: what comes of an allocation, by where the record stands;
* `RollCycle.Stands`: a record from which allocations are in turn;
* **`RollCycle.Stands.allocate`**: an allocation takes the position that comes next;
* `RollCycle.Stands.nth_allocate`: so do many of them, one after another.
-/

namespace Docket.RollCycle

variable {l : RollSettings} {now : Time} {σ σ' : Slate} {q : Nat} {a : Allocation} {c : Counter}

/-- The record after an allocation says the same as the allocation. -/
def Tells (σ : Slate) (key : String) (a : Allocation) : Prop :=
  a.key = key ∧ ∃ c, σ.counters[key]? = some c ∧ c.sequence = a.sequence ∧ c.mark = a.mark

def first (σ : Slate) (key : String) (now : Time) : Counter :=
  σ.counters[key]?.getD ⟨key, 0, .digit 0, now⟩

theorem settle_cases (l : RollSettings) (now : Time) (σ : Slate) (c : Counter)
    (hc : σ.counters[(Series.roll l).key now]? = some c) :
    (∃ e σ', ((Series.roll l).settle now false c).eval now σ = (.error e, σ') ∧
      c.mark.digit? = none) ∨
    (∃ a σ', ((Series.roll l).settle now false c).eval now σ = (.ok a, σ') ∧
      Tells σ' ((Series.roll l).key now) a ∧ a.sequence = c.sequence ∧ a.mark = c.mark ∧
      a.sequence ≤ l.maxSequence) ∨
    ∃ a σ', ((Series.roll l).settle now false c).eval now σ = (.ok a, σ') ∧
      Tells σ' ((Series.roll l).key now) a ∧ l.maxSequence < c.sequence ∧ a.sequence = 1 ∧
      ∃ d, c.mark = .digit d ∧ a.mark = .digit (Series.nextDigit d) := by
  simp only [Series.settle, Series.advance, Series.rotation]
  split
  · next lt =>
    split
    · next none => exact .inl ⟨_, _, rfl, none⟩
    · next d hd =>
      refine .inr (.inr ⟨_, _, rfl, ⟨rfl, _, Ledger.getElem?_counted rfl, rfl, rfl⟩, lt, rfl, d, ?_,
        rfl⟩)
      cases hm : c.mark with
      | digit d' => rw [hm] at hd; cases hd; rfl
      | _ => rw [hm] at hd; cases hd
  · next lt => exact .inr (.inl ⟨_, _, rfl, ⟨rfl, c, hc, rfl, rfl⟩, rfl, rfl, UInt64.not_lt.mp lt⟩)

/-- An allocation fails if the sequence is the last word, or if it has to rotate a digit that is not
there. Otherwise it takes the next sequence, or the first one with the next digit. -/
theorem allocate_cases (l : RollSettings) (now : Time) (σ : Slate) :
    let key := (Series.roll l).key now
    let c := first σ key now
    (∃ e σ', ((Series.roll l).allocate now).eval now σ = (.error e, σ') ∧
      (UInt64.size ≤ c.sequence.toNat + 1 ∨ c.mark.digit? = none)) ∨
    (∃ a σ', ((Series.roll l).allocate now).eval now σ = (.ok a, σ') ∧ Tells σ' key a ∧
      a.sequence.toNat = c.sequence.toNat + 1 ∧ a.mark = c.mark ∧ a.sequence ≤ l.maxSequence) ∨
    ∃ a σ', ((Series.roll l).allocate now).eval now σ = (.ok a, σ') ∧ Tells σ' key a ∧
      l.maxSequence.toNat ≤ c.sequence.toNat ∧ a.sequence = 1 ∧
      ∃ d, c.mark = .digit d ∧ a.mark = .digit (Series.nextDigit d) := by
  intro key c
  let add := (Series.roll l).addition now []
  have start : ((Series.roll l).allocate now).eval now σ =
      (Work.touch add ((Series.roll l).settle now false)).eval now σ := rfl
  simp only [start, Work.eval]
  -- The addition fails past the largest word; otherwise the rest goes by what it comes to.
  cases hn : Touch.sum? key 1 ((Series.roll l).seed now []) now σ.counters[key]? with
  | none =>
    have answer : σ.touch add = (.error (.backend (.overflowed key)), (σ.touch add).2) :=
      Prod.ext (Touch.answer_increment_of_none hn false) rfl
    rw [answer]
    refine .inl ⟨_, _, rfl, .inl ?_⟩
    unfold Touch.sum? Ledger.addWords? at hn
    split at hn
    · cases hn
    · next full => exact Nat.le_of_not_lt full
  | some n =>
    let c₁ := Touch.added key ((Series.roll l).seed now []) now σ.counters[key]? n
    have answer : σ.touch add = (.ok c₁, (σ.touch add).2) :=
      Prod.ext (Touch.answer_increment hn false) rfl
    have record : (σ.touch add).2.counters[key]? = some c₁ :=
      (Ledger.getElem?_counted rfl).trans (Touch.leaves_increment hn)
    have sum : c₁.sequence.toNat = c.sequence.toNat + 1 := Ledger.toNat_of_addWords? hn
    rw [answer]
    rcases settle_cases l now _ c₁ record with ⟨e, σ', run, none⟩ |
      ⟨a, σ', run, tells, sequence, mark, le⟩ | ⟨a, σ', run, tells, lt, sequence, d, mark, next⟩
    · exact .inl ⟨e, σ', run, .inr none⟩
    · exact .inr (.inl ⟨a, σ', run, tells, sequence ▸ sum, mark, le⟩)
    · have := UInt64.lt_iff_toNat_lt.mp lt
      exact .inr (.inr ⟨a, σ', run, tells, by omega, sequence, d, mark, next⟩)

/-! ## In turn -/

/-- Whether the record is one before a position, and there is a next word. -/
structure Stands (l : RollSettings) (now : Time) (σ : Slate) (q : Nat) : Prop where
  awaits : Awaits l.maxSequence σ.counters[(Series.roll l).key now]? q
  room : (first σ ((Series.roll l).key now) now).sequence.toNat + 1 < UInt64.size

theorem stands_place (record : IsRecord σ.counters[(Series.roll l).key now]?)
    (room : ∀ c, σ.counters[(Series.roll l).key now]? = some c →
      c.sequence.toNat + 1 < UInt64.size) :
    Stands l now σ (place l.maxSequence σ.counters[(Series.roll l).key now]?) := by
  refine ⟨awaits_place record, ?_⟩
  unfold first
  cases hr : σ.counters[(Series.roll l).key now]? with
  | none => exact show 0 + 1 < UInt64.size by decide
  | some c => exact room c hr

theorem Tells.stands (htop : 1 ≤ l.maxSequence) (hle : l.maxSequence ≤ 99)
    (h : Tells σ ((Series.roll l).key now) a) (ha : a.IsAt l.maxSequence q) :
    Stands l now σ (q + 1) := by
  obtain ⟨-, c, hc, sequence, mark⟩ := h
  constructor
  · rw [hc]
    exact awaits_of_isAt htop ha sequence mark
  · have le := UInt64.le_iff_toNat_le.mp (UInt64.le_trans (sequence_le_of_isAt htop ha) hle)
    have small : a.sequence.toNat ≤ 99 := le
    rw [first, hc, Option.getD_some, sequence, show UInt64.size = 2 ^ 64 from rfl]
    omega

/-- **An allocation takes the position that comes next.** -/
theorem Stands.allocate (htop : 1 ≤ l.maxSequence) (hle : l.maxSequence ≤ 99)
    (h : Stands l now σ q) :
    ∃ a σ', ((Series.roll l).allocate now).eval now σ = (.ok a, σ') ∧
      a.key = (Series.roll l).key now ∧ a.IsAt l.maxSequence q ∧ Stands l now σ' (q + 1) := by
  have room := h.room
  have awaits : Awaits l.maxSequence (some (first σ ((Series.roll l).key now) now)) q :=
    h.awaits.getD
  obtain ⟨d, -, hmark, -⟩ := awaits_some_iff.mp awaits
  rcases allocate_cases l now σ with ⟨e, σ', -, full | none⟩ |
    ⟨a, σ', run, tells, sequence, mark, le⟩ | ⟨a, σ', run, tells, le, sequence, d, hd, mark⟩
  · omega
  · rw [hmark] at none
    cases none
  · have isAt := awaits.within mark sequence le
    exact ⟨a, σ', run, tells.1, isAt, tells.stands htop hle isAt⟩
  · have isAt := awaits.rotated htop hd le mark sequence
    exact ⟨a, σ', run, tells.1, isAt, tells.stands htop hle isAt⟩

theorem Stands.after_allocate (htop : 1 ≤ l.maxSequence) (hle : l.maxSequence ≤ 99)
    (h : Stands l now σ q) (n : Nat) :
    Stands l now (σ.after ((Series.roll l).allocate now) now n) (q + n) := by
  induction n with
  | zero => exact h
  | succ n ih =>
    obtain ⟨a, σ', run, -, -, stands⟩ := ih.allocate htop hle
    rw [Slate.after, run]
    exact stands

/-- **Allocations one after another** take one position after another. -/
theorem Stands.nth_allocate (htop : 1 ≤ l.maxSequence) (hle : l.maxSequence ≤ 99)
    (h : Stands l now σ q) (n : Nat) :
    ∃ a, σ.nth ((Series.roll l).allocate now) now n = .ok a ∧ a.key = (Series.roll l).key now ∧
      a.IsAt l.maxSequence (q + n) := by
  obtain ⟨a, σ', run, key, isAt, -⟩ := (h.after_allocate htop hle n).allocate htop hle
  exact ⟨a, congrArg Prod.fst run, key, isAt⟩

end Docket.RollCycle
