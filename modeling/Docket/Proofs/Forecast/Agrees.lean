import Docket.Forecast
import Docket.Proofs.Roll.Allot
import Docket.Proofs.Roll.Text

/-!
# Forecasts agree with allocations

* `Forecast.Entry.allocation`: the allocation that an entry stands for;
* `Forecast.settle_isAt`, `Forecast.entries_eval`: a forecast takes one position after another;
* `Forecast.preview_run`: a preview in a calm world;
* **`Forecast.preview_agrees`**: it tells the allocations to come, and changes nothing.
-/

namespace Docket.Forecast

open RollCycle (Awaits awaits_of_isAt)

variable {top : UInt64} {q : Nat} {c : Counter} {period : String} {now : Time} {w : World}
  {l : RollSettings}

def Entry.allocation (e : Entry) : Allocation := ⟨e.period, e.sequence, .digit e.digit, false⟩

theorem settle_isAt (htop : 1 ≤ top) (h : Awaits top (some c) q) {sequence : UInt64} {digit : UInt8}
    (mark : c.mark = .digit digit) (next : sequence.toNat = c.sequence.toNat + 1) :
    Allocation.IsAt top q
      ⟨period, (settle top sequence digit).1, .digit (settle top sequence digit).2, false⟩ := by
  unfold settle
  split
  · next lt =>
    have := UInt64.lt_iff_toNat_lt.mp lt
    exact h.rotated htop mark (by omega) rfl rfl
  · next lt => exact h.within mark.symm next (UInt64.not_lt.mp lt)

theorem format_of_isAt (segment : ∀ name, Segment.check name period = .ok ()) (htop : 1 ≤ top)
    (hle : top ≤ 99) {sequence : UInt64} {digit : UInt8}
    (h : Allocation.IsAt top q ⟨period, sequence, .digit digit, false⟩) :
    RollNumber.format ⟨period, digit, sequence⟩ =
      .ok (RollNumber.text ⟨period, digit, sequence⟩) := by
  rw [RollCycle.number_of_isAt htop h rfl]
  exact RollCycle.format_number segment htop hle q

/-- **A forecast takes one position after another.** -/
theorem entries_eval (segment : ∀ name, Segment.check name period = .ok ()) (htop : 1 ≤ top)
    (hle : top ≤ 99) (count index : Nat) {sequence : UInt64} {digit : UInt8}
    (h : Allocation.IsAt top q ⟨period, sequence, .digit digit, false⟩) :
    ∃ es, entries period top count index sequence digit = .ok es ∧ es.length = count ∧
      ∀ i (e : Entry), es[i]? = some e → e.period = period ∧ e.allocation.IsAt top (q + i) ∧
        RollNumber.format ⟨period, e.digit, e.sequence⟩ = .ok e.id := by
  induction count generalizing index sequence digit q with
  | zero => exact ⟨[], rfl, rfl, nofun⟩
  | succ count ih =>
    have format := format_of_isAt segment htop hle h
    have small : sequence.toNat ≤ 99 := UInt64.le_iff_toNat_le.mp
      (UInt64.le_trans (RollCycle.sequence_le_of_isAt htop h) hle)
    have next : (sequence + 1).toNat = sequence.toNat + 1 := by
      rw [UInt64.toNat_add]
      exact Nat.mod_eq_of_lt (by simp; omega)
    let c : Counter := ⟨period, sequence, .digit digit, ⟨0, 0, 0⟩⟩
    have h' : Allocation.IsAt top (q + 1) ⟨period, _, .digit _, false⟩ :=
      settle_isAt (c := c) htop (awaits_of_isAt htop h rfl rfl) rfl next
    obtain ⟨es, run, length, all⟩ := ih (index + 1) h'
    refine ⟨⟨RollNumber.text ⟨period, digit, sequence⟩, period, sequence, digit, index⟩ :: es, ?_,
      by rw [List.length_cons, length], ?_⟩
    · rw [entries, format]
      show (entries _ _ _ _ _ _ >>= _) = _
      rw [run]
      rfl
    · intro i e he
      cases i with
      | zero =>
        cases he
        exact ⟨rfl, h, format⟩
      | succ i =>
        obtain ⟨hp, isAt, written⟩ := all i e he
        exact ⟨hp, by rwa [Nat.add_assoc, Nat.add_comm 1 i] at isAt, written⟩

/-! ## Previews -/

theorem toNat_after {n : UInt64} (room : n.toNat + 1 < UInt64.size) :
    (after n).toNat = n.toNat + 1 := by
  rw [after, if_pos room, UInt64.toNat_add]
  exact Nat.mod_eq_of_lt room

theorem max_one {n : UInt64} (pos : 1 ≤ n.toNat) : max n 1 = n := by
  show (if n ≤ 1 then 1 else n) = n
  split
  · next le =>
    have : n.toNat ≤ 1 := UInt64.le_iff_toNat_le.mp le
    exact UInt64.toNat_inj.mp (Nat.le_antisymm pos this)
  · rfl

theorem startOf_eq {r : Option Counter} (record : RollCycle.IsRecord r)
    (room : (r.getD ⟨period, 0, .digit 0, now⟩).sequence.toNat + 1 < UInt64.size) :
    ∃ digit ≤ 9, (startOf r).2 = digit ∧
      (r.getD ⟨period, 0, .digit 0, now⟩).mark = .digit digit ∧
      (max (startOf r).1 1).toNat = (r.getD ⟨period, 0, .digit 0, now⟩).sequence.toNat + 1 := by
  cases r with
  | none => exact ⟨0, by decide, rfl, rfl, rfl⟩
  | some c =>
    obtain ⟨d, hd, mark⟩ := record c rfl
    rw [Option.getD_some] at room ⊢
    refine ⟨d, hd, ?_, mark, ?_⟩
    · rw [startOf, mark]
      rfl
    · have next := toNat_after room
      rw [startOf, max_one (by rw [next]; exact Nat.succ_pos _), next]

theorem simulate_eval (segment : ∀ name, Segment.check name period = .ok ()) (htop : 1 ≤ top)
    (hle : top ≤ 99) (count : Nat) {r : Option Counter} (h : Awaits top r q)
    (room : (r.getD ⟨period, 0, .digit 0, now⟩).sequence.toNat + 1 < UInt64.size) :
    ∃ es, simulate period count (startOf r).1 (startOf r).2 top = .ok es ∧ es.length = count ∧
      ∀ i (e : Entry), es[i]? = some e → e.period = period ∧ e.allocation.IsAt top (q + i) ∧
        RollNumber.format ⟨period, e.digit, e.sequence⟩ = .ok e.id := by
  obtain ⟨digit, hd, hdigit, mark, next⟩ := startOf_eq h.1 room
  have first : Allocation.IsAt top q ⟨period, _, .digit _, false⟩ :=
    settle_isAt htop h.getD mark next
  have pos : top ≠ 0 := by
    rintro rfl
    exact absurd htop (by decide)
  unfold simulate
  split
  · next zero =>
    subst zero
    exact ⟨[], rfl, rfl, nofun⟩
  · rw [hdigit, if_neg (RollNumber.not_radix_le hd),
      if_neg (show ¬ (top = 0 ∨ RollNumber.maxSequence < top) from
        not_or.mpr ⟨pos, UInt64.not_lt.mpr hle⟩)]
    exact entries_eval segment htop hle count 1 first

theorem preview_run (calm : w.Calm now) (count : Nat) :
    ∃ w', (preview l count).run w = (.finished (simulate ((Series.roll l).key now) count
        (startOf w.ledger.counters[(Series.roll l).key now]?).1
        (startOf w.ledger.counters[(Series.roll l).key now]?).2 l.maxSequence), w') ∧
      w'.ledger = w.ledger ∧ w'.Calm now ∧ w'.slate = w.slate := by
  unfold preview
  split
  · next zero =>
    subst zero
    exact ⟨w, rfl, rfl, calm, rfl⟩
  · obtain ⟨w', query, calm', ledger, slate⟩ := calm.query (.get ((Series.roll l).key now))
    rw [Plan.run, calm.now_eq]
    simp only [Plan.run, query]
    exact ⟨w', rfl, ledger, calm', slate⟩

/-- **A preview agrees with the allocations to come**: its entries have the key, the sequence, the
digit and the identifier of allocations made one after another in one transaction. It changes
nothing. -/
theorem preview_agrees (htop : 1 ≤ l.maxSequence) (hle : l.maxSequence ≤ 99)
    (quiet : w.Quiet now ((Series.roll l).key now))
    (record : RollCycle.IsRecord w.ledger.counters[(Series.roll l).key now]?)
    (room : ∀ c, w.ledger.counters[(Series.roll l).key now]? = some c →
      c.sequence.toNat + 1 < UInt64.size) (count : Nat) :
    ∃ es w', (preview l count).run w = (.finished (.ok es), w') ∧ w'.ledger = w.ledger ∧
      es.length = count ∧ ∀ i (e : Entry), es[i]? = some e →
        ∃ a, w.start.2.nth ((Series.roll l).allocate now) w.ledger.start.1 i = .finished (.ok a) ∧
          a.key = e.period ∧ a.sequence = e.sequence ∧ a.mark = .digit e.digit ∧
          (Series.roll l).format a [] = .ok e.id := by
  have stands : RollCycle.Stands l now w.slate _ := RollCycle.stands_place record room
  obtain ⟨w', run, ledger, -⟩ := preview_run (l := l) quiet.toCalm count
  have segment : ∀ name, Segment.check name ((Series.roll l).key now) = .ok () :=
    Date.check_dayKey now.date
  obtain ⟨es, sim, length, all⟩ := simulate_eval segment htop hle count stands.awaits stands.room
  refine ⟨es, w', run.trans (congrArg (fun r => (Run.finished r, w')) sim), ledger, length,
    fun i e he => ?_⟩
  obtain ⟨period, isAt, written⟩ := all i e he
  obtain ⟨w₀, start, ready, -, slate, -⟩ := quiet.start
  obtain ⟨a, nth, hkey, isAt'⟩ := stands.nth_allocate htop hle i
  obtain ⟨sequence, mark⟩ := RollCycle.eq_of_isAt isAt' isAt
  refine ⟨a, ?_, hkey.trans period.symm, sequence, mark, ?_⟩
  · rw [show w.start.2 = w₀ from congrArg Prod.snd start, ready.nth Series.tidy_allocate, slate,
      nth]
  · simp only [Series.format, mark, Mark.digit?, Entry.allocation, hkey, sequence]
    exact written

/-- A quiet world on 14 March 2025 whose counter is past the last sequence, with the last digit. -/
def sample : World where
  ledger :=
    { counters := ({} : Std.ExtTreeMap String Counter).insert "250314" <|
        .mk "250314" 120 (.digit 9) ⟨1741942800, 0, 0⟩ }
  clock := fun _ => ⟨1741942800, 0, 0⟩

theorem preview_agrees_sample : ∃ es w', (preview {} 2).run sample = (.finished (.ok es), w') ∧
    w'.ledger = sample.ledger ∧ es.length = 2 ∧ ∀ i (e : Entry), es[i]? = some e →
      ∃ a, sample.start.2.nth ((Series.roll {}).allocate ⟨1741942800, 0, 0⟩) ⟨0, 0⟩ i =
          .finished (.ok a) ∧
        a.key = e.period ∧ a.sequence = e.sequence ∧ a.mark = .digit e.digit ∧
        (Series.roll {}).format a [] = .ok e.id := by
  have quiet : sample.Quiet ⟨1741942800, 0, 0⟩ ((Series.roll {}).key ⟨1741942800, 0, 0⟩) :=
    ⟨⟨fun _ => rfl, fun _ => rfl, rfl⟩, fun l hl => by cases hl⟩
  have stored : sample.ledger.counters[(Series.roll {}).key ⟨1741942800, 0, 0⟩]? =
      some ⟨"250314", 120, .digit 9, ⟨1741942800, 0, 0⟩⟩ := by decide +kernel
  refine preview_agrees (by decide) (by decide) quiet (fun c hc => ⟨9, ?_⟩) (fun c hc => ?_) 2 <;>
    obtain rfl := Option.some.inj (stored.symm.trans hc)
  · exact ⟨by decide, rfl⟩
  · decide

end Docket.Forecast
