import Docket.Proofs.Calendar.Months
import Docket.Proofs.Issue.Tidy
import Mathlib

/-!
# Invoice numbers when the clock goes back

An invoice counter starts over when its record is of another month than the clock shows. While the
clock does not go back, that is an earlier month; a clock that steps back over the end of a month
makes the counter start over too.

* `Invoicing.succeeding`, **`Invoicing.allocate_eval`**: the record after an allocation;
* **`Invoicing.starts_over_iff`**: an allocation starts over exactly in another month, which is an
  earlier one exactly unless the record is of a later one.
-/

namespace Docket

/-! ## Earlier months -/

/-- Whether a date is in an earlier calendar month than another. -/
def Date.InEarlierMonth (d e : Date) : Prop :=
  d.year < e.year ∨ d.year = e.year ∧ d.month < e.month

instance (d e : Date) : Decidable (d.InEarlierMonth e) := by
  unfold Date.InEarlierMonth; infer_instance

theorem Date.InEarlierMonth.asymm {d e : Date} (h : d.InEarlierMonth e) :
    ¬ e.InEarlierMonth d := by
  unfold InEarlierMonth at *
  omega

theorem Date.inEarlierMonth_iff {n m : Int} : (ofDayNumber n).InEarlierMonth (ofDayNumber m) ↔
    (ofDayNumber n).monthIndex < (ofDayNumber m).monthIndex := by
  have := month_mem n
  have := month_mem m
  unfold InEarlierMonth monthIndex
  omega

namespace Time

variable {t now : Time}

/-- Of times that are not in one month, one is in an earlier month. -/
theorem not_sameMonth_iff : ¬ t.SameMonth now ↔
    (t.atOffset now.offset).date.InEarlierMonth now.date ∨
      now.date.InEarlierMonth (t.atOffset now.offset).date := by
  unfold SameMonth Date.InEarlierMonth
  omega

/-- **A clock that goes forward** does not come to an earlier month. -/
theorem not_inEarlierMonth (le : t.instant ≤ now.instant) :
    ¬ now.date.InEarlierMonth (t.atOffset now.offset).date := by
  have mono : (t.atOffset now.offset).date.monthIndex ≤ now.date.monthIndex :=
    monthIndex_mono rfl le
  exact fun earlier => Int.not_lt.mpr mono (Date.inEarlierMonth_iff.mp earlier)

end Time

namespace Invoicing

variable {s : InvoiceSettings} {σ : Slate} {c : Counter} {now : Time} {w : World} {t : Tx}

/-! ## An allocation -/

def added (c : Counter) (now : Time) : Counter :=
  { c with sequence := c.sequence + 1, written := now }

/-- The record after an allocation from a record. -/
def succeeding (c : Counter) (key letters : String) (now : Time) : Counter :=
  if c.IsStale now then added ⟨key, 0, .lead (Series.invoiceLead now.date letters), now⟩ now
  else added c now

theorem freshen_eval (stored : σ.counters[s.counterName]? = some c) (seed : Mark) :
    ((Series.invoice s).freshen s.counterName seed now).eval now σ =
      (.ok (decide (c.IsStale now)),
        if c.IsStale now then (σ.touch (.set s.counterName 0 seed now)).2 else σ) := by
  have read : σ.touch (.getIn s.counterName) = (.ok (some c), σ) :=
    Prod.ext (congrArg Except.ok stored) rfl
  have reset : σ.touch (.set s.counterName 0 seed now) =
      (.ok ⟨s.counterName, 0, seed, now⟩, (σ.touch (.set s.counterName 0 seed now)).2) := rfl
  show Work.eval now (.touch (.getIn s.counterName) _) σ = _
  rw [Work.eval, read]
  show Work.eval now (if c.IsStale now then
    .touch (.set s.counterName 0 seed now) fun _ => .done true else .done false) σ = _
  split
  · next stale =>
    rw [Work.eval, reset, decide_eq_true stale]
    rfl
  · next fresh =>
    rw [decide_eq_false fresh]
    rfl

theorem addition_eval (record : σ.counters[s.counterName]? = some c)
    (room : c.sequence.toNat + 1 < UInt64.size) (words : List UInt64) (rotated : Bool) :
    ∃ σ', (Work.touch ((Series.invoice s).addition now words)
          ((Series.invoice s).settle now rotated)).eval now σ =
        (.ok ⟨s.counterName, c.sequence + 1, c.mark, rotated⟩, σ') ∧
      σ'.counters[s.counterName]? = some (added c now) := by
  let add := (Series.invoice s).addition now words
  have sum : Touch.sum? s.counterName 1 ((Series.invoice s).seed now words) now (some c) =
      some (c.sequence + 1) := if_pos room
  have answer : σ.touch add = (.ok (added c now), (σ.touch add).2) :=
    Prod.ext ((congrArg (add.answer · _) record).trans (Touch.answer_increment sum false)) rfl
  have left : (σ.touch add).2.counters[s.counterName]? = some (added c now) :=
    (Ledger.getElem?_counted rfl).trans
      ((congrArg add.leaves record).trans (Touch.leaves_increment sum))
  rw [Work.eval, answer]
  exact ⟨_, rfl, left⟩

/-- **An allocation from a record**, said of the slate. -/
theorem allocate_eval (now : Time) (stored : σ.counters[s.counterName]? = some c)
    (room : c.sequence.toNat + 1 < UInt64.size) :
    let letters := Suffix.confusableFree (σ.takeWords Series.leadLetters).1
    let next := succeeding c s.counterName letters now
    ∃ σ', ((Series.invoice s).allocate now).eval now σ =
        (.ok ⟨s.counterName, next.sequence, next.mark, decide (c.IsStale now)⟩, σ') ∧
      σ'.counters[s.counterName]? = some next := by
  intro letters next
  let words := (σ.takeWords Series.leadLetters).1
  let drawn := (σ.takeWords Series.leadLetters).2
  let seed := (Series.invoice s).seed now words
  have stored : drawn.counters[s.counterName]? = some c := stored
  have start : ((Series.invoice s).allocate now).eval now σ =
      (((Series.invoice s).freshen s.counterName seed now).bind fun rotated =>
        .touch ((Series.invoice s).addition now words)
          ((Series.invoice s).settle now rotated)).eval now drawn := rfl
  rw [start, Work.eval_bind, freshen_eval stored]
  by_cases stale : c.IsStale now
  · simp only [next, succeeding, if_pos stale]
    refine addition_eval ?_ ?_ words _
    · exact Ledger.getElem?_counted rfl
    · exact show 0 + 1 < UInt64.size by decide
  · simp only [next, succeeding, if_neg stale]
    exact addition_eval stored room words _

/-- **When invoice numbers start over.** An allocation from a record that has a successor is made.
It starts over, with a fresh prefix and the first sequence, exactly if the record was written in
another month, and goes on with the record's mark and its next sequence otherwise. So it starts over
exactly after an earlier month, unless the record is of a later one; and it never is while the clock
goes forward. -/
theorem starts_over_iff (ready : w.Ready now t s.counterName)
    (stored : w.ledger.counters[s.counterName]? = some c)
    (room : c.sequence.toNat + 1 < UInt64.size) :
    let written := (c.written.atOffset now.offset).date
    let letters := Suffix.confusableFree (w.takeWords Series.leadLetters).1
    ∃ a w', ((Series.invoice s).allocate now).run t w = (.finished (.ok a), w') ∧
      a.key = s.counterName ∧
      (a.rotated = true → a.sequence = 1 ∧
        a.mark = .lead (Series.invoiceLead now.date letters)) ∧
      (a.rotated = false → a.sequence.toNat = c.sequence.toNat + 1 ∧ a.mark = c.mark) ∧
      (∃ c', w'.ledger.counters[s.counterName]? = some c' ∧ c'.sequence = a.sequence ∧
        c'.mark = a.mark ∧ c'.written = now) ∧
      (a.rotated = true ↔ written.InEarlierMonth now.date ∨ now.date.InEarlierMonth written) ∧
      ((a.rotated = true ↔ written.InEarlierMonth now.date) ↔ ¬ now.date.InEarlierMonth written) ∧
      (c.written.instant ≤ now.instant → ¬ now.date.InEarlierMonth written) := by
  intro written letters
  let next := succeeding c s.counterName letters now
  obtain ⟨w', run, -, -, slate, -⟩ := Work.run_eq (Series.tidy_allocate (s := .invoice s)) ready
  obtain ⟨σ', eval, left⟩ := allocate_eval (σ := w.slate) now stored room
  rw [eval] at run slate
  have left : w'.ledger.counters[s.counterName]? = some next :=
    (congrArg (fun σ => σ.counters[s.counterName]?) slate).trans left
  have starts : decide (c.IsStale now) = true ↔
      written.InEarlierMonth now.date ∨ now.date.InEarlierMonth written :=
    decide_eq_true_iff.trans Time.not_sameMonth_iff
  refine ⟨_, w', run, rfl, fun rotated => ?_, fun kept => ?_, ⟨next, left, rfl, rfl, ?_⟩, starts,
    ⟨fun agree later => ?_, fun forward => starts.trans (or_iff_left forward)⟩,
    Time.not_inEarlierMonth⟩
  · simp only [succeeding, if_pos (of_decide_eq_true rotated)]
    exact ⟨rfl, rfl⟩
  · simp only [succeeding, if_neg (of_decide_eq_false kept)]
    exact ⟨Ledger.toNat_of_addWords? (if_pos room), rfl⟩
  · simp only [next, succeeding]
    split <;> rfl
  · exact (agree.mp (starts.mpr (.inr later))).asymm later

/-- A world in which a transaction is open and the invoice counter was last written at a time. -/
def sampleOf (written : Time) : World where
  ledger :=
    { counters := ({} : Std.ExtTreeMap String Counter).insert "invoice"
        ⟨"invoice", 7, .lead "XZ2504", written⟩
      begun := 1
      active := [0] }
  clock := fun _ => ⟨1743463800, 0, 0⟩

theorem ready_sampleOf (written : Time) :
    (sampleOf written).Ready ⟨1743463800, 0, 0⟩ ⟨0, 0⟩ "invoice" :=
  ⟨⟨fun _ => rfl, fun _ => rfl, rfl⟩, ⟨rfl, List.mem_singleton_self 0⟩,
    LockTable.Free.within fun l hl => by cases hl⟩

/-- From a record of 1 March 2025 an allocation on 31 March goes on with the sequence. -/
theorem starts_over_iff_sample : ∃ a w',
    ((Series.invoice {}).allocate ⟨1743463800, 0, 0⟩).run ⟨0, 0⟩ (sampleOf ⟨1740787200, 0, 0⟩) =
      (.finished (.ok a), w') ∧ a.rotated = false ∧ a.sequence = 8 ∧ a.mark = .lead "XZ2504" := by
  have stored : (sampleOf ⟨1740787200, 0, 0⟩).ledger.counters["invoice"]? =
      some ⟨"invoice", 7, .lead "XZ2504", ⟨1740787200, 0, 0⟩⟩ := by decide +kernel
  obtain ⟨a, w', run, -, -, goesOn, -, starts, -⟩ :=
    starts_over_iff (s := {}) (ready_sampleOf ⟨1740787200, 0, 0⟩) stored (by decide)
  have kept : a.rotated = false :=
    Bool.eq_false_iff.mpr fun rotated => absurd (starts.mp rotated) (by decide)
  obtain ⟨sequence, mark⟩ := goesOn kept
  exact ⟨a, w', run, kept, UInt64.toNat_inj.mp sequence, mark⟩

/-- **A clock that goes back** by forty minutes, from 1 April 2025 to 31 March, makes the counter
start over. -/
theorem starts_over_backward :
    let now : Time := ⟨1743463800, 0, 0⟩
    let written : Time := ⟨1743466200, 0, 0⟩
    now.date.InEarlierMonth (written.atOffset now.offset).date ∧ ∃ a,
      (((Series.invoice {}).allocate now).run ⟨0, 0⟩ (sampleOf written)).1 = .finished (.ok a) ∧
        a.rotated = true ∧ a.sequence = 1 := by
  refine ⟨by decide, ⟨"invoice", 1, .lead "222503", true⟩, ?_, rfl, rfl⟩
  cbv

end Invoicing

end Docket
