import Docket.Proofs.Callers.Jobs
import Docket.Proofs.Callers.Returned
import Docket.Proofs.Roll.Cycle

/-!
# Roll numbers come in turn

* `RollCycle.Settled`: the record under a key comes after the allocations that are complete;
* `RollCycle.guarded_allocate`: an allocation keeps that, wherever it may be left;
* `Floor.Traced.isAt`, **`Floor.Runs.in_turn`**: in any run, the allocations completed under the key
  are at successive positions of the cycle, and so is the next one that is returned.
-/

namespace Docket

open KeyState (Possible)

namespace RollCycle

variable {top : UInt64} {start : Nat} {σ : KeyState} {key : String} {now : Time} {s : Series}
  {past : List (Option Counter × List Allocation)}

/-- Whether the allocations under a key are at the positions from `start` on, and the record comes
after them. -/
structure Settled (top : UInt64) (start : Nat) (σ : KeyState) : Prop where
  awaits : Awaits top σ.record (start + σ.allotted.length)
  inTurn : ∀ i (a : Allocation), σ.allotted[i]? = some a → a.IsAt top (start + i)

theorem Settled.note {a : Allocation} {c : Counter} (h : Settled top start σ) (htop : 1 ≤ top)
    (ha : a.IsAt top (start + σ.allotted.length)) (sequence : c.sequence = a.sequence)
    (mark : c.mark = a.mark) : Settled top start (KeyState.note ⟨some c, σ.allotted, past⟩ a) where
  awaits := by
    change Awaits top (some c) (start + (σ.allotted ++ [a]).length)
    rw [List.length_append]
    exact awaits_of_isAt htop ha sequence mark
  inTurn i b hb := by
    change (σ.allotted ++ [a])[i]? = some b at hb
    by_cases hi : i < σ.allotted.length
    · rw [List.getElem?_append_left hi] at hb
      exact h.inTurn i b hb
    · rw [List.getElem?_append_right (by omega), List.getElem?_singleton] at hb
      split at hb
      · obtain rfl := Option.some.inj hb
        rwa [show i = σ.allotted.length by omega]
      · cases hb

theorem Settled.after (h : Settled top start σ) {r : Option Counter}
    (awaits : Awaits top r (start + σ.allotted.length)) : Settled top start ⟨r, σ.allotted, past⟩ :=
  ⟨awaits, h.inTurn⟩

/-- What follows the addition keeps the cycle, given what the addition left. -/
theorem guarded_settle {α : Type} {f : Allocation → Work α} {c : Counter}
    {l : RollSettings} (htop : 1 ≤ l.maxSequence) (hf : ∀ a, (f a).Avoids ((Series.roll l).key now))
    (h : Settled l.maxSequence start σ) {c₀ : Counter}
    (h₀ : Awaits l.maxSequence (some c₀) (start + σ.allotted.length)) (mark : c.mark = c₀.mark)
    (sequence : c.sequence.toNat = c₀.sequence.toNat + 1) :
    (((Series.roll l).settle now false c).bind f).Guarded ((Series.roll l).key now)
      (Settled l.maxSequence start) (some ⟨some c, σ.allotted, past⟩) := by
  obtain ⟨d, hd, hmark, -⟩ := awaits_some_iff.mp h₀
  have hc : c.mark = .digit d := mark.trans hmark
  simp only [Series.settle, Series.advance, Series.rotation, hc, Mark.digit?]
  split
  · next lt =>
    have past := h₀.past mark sequence lt
    refine .of_touch rfl (fun σ' e => ?_) fun σ' c' e ha => ?_ <;> subst e
    · exact h.after past
    · cases ha
      have le := Nat.le_of_lt (UInt64.lt_iff_toNat_lt.mp lt)
      refine .of_note rfl ((hf _).guarded fun σ' e => ?_)
      subst e
      exact h.note htop (past.rotated htop hc le rfl rfl) rfl rfl
  · next lt =>
    refine .of_note rfl ((hf _).guarded fun σ' e => ?_)
    subst e
    exact h.note htop (h₀.within (hc.symm.trans mark) sequence (UInt64.not_lt.mp lt)) rfl hc

/-- **An allocation keeps the cycle**, wherever it may be left. -/
theorem guarded_allocate {α : Type} {f : Allocation → Work α} (htop : 1 ≤ top)
    (hk : s.key now = key) (hs : s.rotation = .overflow top) (hf : ∀ a, (f a).Avoids key) :
    ((s.allocate now).bind f).Guarded key (Settled top start) none := by
  subst hk
  cases s with
  | roll l =>
    obtain rfl : l.maxSequence = top := Rotation.overflow.inj hs
    rw [Series.allocate_eq]
    refine fun words => .of_touch rfl (fun σ h => h) fun σ c h ha => ?_
    simp only [Series.addition, Touch.answer] at ha
    split at ha
    · next n hn =>
      cases ha
      have h₀ : Awaits l.maxSequence (some (σ.record.getD ⟨(Series.roll l).key now, 0, .digit 0,
        now⟩)) (start + σ.allotted.length) := h.awaits.getD
      rw [KeyState.after, KeyState.turned, Touch.leaves_increment hn]
      exact guarded_settle htop hf h h₀ (c := Touch.added _ _ now σ.record n) rfl
        (Ledger.toNat_of_addWords? hn)
    · cases ha
  | _ => cases hs

end RollCycle

/-! ## Any run -/

theorem Floor.Traced.isAt {f g : Floor} {key : String} {top : UInt64} {σ : KeyState}
    (htop : 1 ≤ top) (opening : f.Opening)
    (record : RollCycle.IsRecord f.world.ledger.counters[key]?)
    (traced : Floor.Traced (Job.Allots key (.overflow top)) key f σ g) :
    ∀ i (a : Allocation), (g.world.allotted key)[i]? = some a →
      a.IsAt top (RollCycle.place top f.world.ledger.counters[key]? + i) := by
  have none : f.world.allotted key = [] := by simp [World.allotted, opening.notes]
  have settled : RollCycle.Settled top (RollCycle.place top f.world.ledger.counters[key]?)
      (f.world.keyState key) := by
    refine ⟨?_, fun i a ha => ?_⟩ <;> simp only [World.keyState, none] at *
    · exact RollCycle.awaits_place record
    · cases ha
  obtain ⟨σ', hσ, ahead⟩ := traced.ahead
    (fun job h => (h.fits fun hk hs hf => RollCycle.guarded_allocate htop hk hs hf).safe)
    opening settled
  intro i a ha
  refine hσ.inTurn i a ?_
  rw [traced.shows.2] at ha
  obtain ⟨later, e⟩ := ahead.allotted
  rw [← e, List.getElem?_append_left (List.getElem?_eq_some_iff.mp ha).1]
  exact ha

/-- **Roll numbers come in turn.** Whoever allocates under a key in whatever order, and whatever
fails or is given up: the allocations completed are at the positions after the record that was there
at first. So any two of them less than a cycle apart differ. What an allocation returns next is the
one completed next, at the next position. -/
theorem Floor.Runs.in_turn {f f' : Floor} {key : String} {top : UInt64} (htop : 1 ≤ top)
    (opening : f.Opening) (record : RollCycle.IsRecord f.world.ledger.counters[key]?)
    (runs : Floor.Runs (Job.Allots key (.overflow top)) f f') :
    (∀ i (a : Allocation), (f'.world.allotted key)[i]? = some a →
      a.IsAt top (RollCycle.place top f.world.ledger.counters[key]? + i)) ∧
    (∀ i j (a b : Allocation), i < j → j < i + RollCycle.length top →
      (f'.world.allotted key)[i]? = some a → (f'.world.allotted key)[j]? = some b →
      (a.mark, a.sequence) ≠ (b.mark, b.sequence)) ∧
    ∀ i s now a w, f'.Returns i s now a w → s.key now = key → s.rotation = .overflow top →
      w.allotted key = f'.world.allotted key ++ [a] ∧
      a.IsAt top (RollCycle.place top f.world.ledger.counters[key]? +
        (f'.world.allotted key).length) := by
  obtain ⟨σ, traced⟩ := runs.traced key
  have isAt := traced.isAt htop opening record
  refine ⟨isAt, fun i j a b lt near ha hb => ?_, fun i s now a w returns hk hs => ?_⟩
  · exact RollCycle.ne_of_isAt (isAt i a ha) (isAt j b hb) (by omega) (by omega)
  · obtain ⟨allotted, _, g, traced', world, -⟩ := traced.returns returns hk fun _ _ _ _ => hs
    refine ⟨allotted, traced'.isAt htop opening record _ a ?_⟩
    rw [world, allotted]
    exact List.getElem?_concat_length

namespace Floor

/-- An empty ledger on 14 March 2025, and a script that fails the first rotation. -/
def sample : Floor where
  world :=
    { ledger := {}
      clock := fun _ => ⟨1741942800, 0, 0⟩
      faults := fun m => if m = .set then [.fail (.unavailable "")] else [] }
  callers _ := .planned (.done ())
  hand _ := none

def sampleJob : Job := .allocate (.roll { maxSequence := 1 }) ⟨1741942800, 0, 0⟩ ⟨0⟩ ⟨0, 0⟩

/-- One allocation, one that fails between its two writes, and another. -/
def sampleEnd : Floor :=
  (((sample.doing 0 .start 2).doing 0 sampleJob 9).doing 0 sampleJob 9).doing 0 sampleJob 9

theorem runs_sampleEnd : Runs (Job.Allots "250314" (.overflow 1)) sample sampleEnd := by
  have allots : sampleJob.Allots "250314" (.overflow 1) := fun _ _ => rfl
  refine Relation.ReflTransGen.trans ?_ (runs_doing 9 ?_ ?_ allots)
  · refine Relation.ReflTransGen.trans ?_ (runs_doing 9 ?_ ?_ allots)
    · refine Relation.ReflTransGen.trans ?_ (runs_doing 9 ?_ ?_ allots)
      · exact runs_doing 2 rfl rfl trivial
      · decide +kernel
      · decide +kernel
    · decide +kernel
    · decide +kernel
  · decide +kernel
  · decide +kernel

theorem returns_sampleEnd : ∃ w, sampleEnd.Returns 0 (.roll { maxSequence := 1 })
    ⟨1741942800, 0, 0⟩ ⟨"250314", 1, .digit 2, true⟩ w :=
  ⟨_, by decide +kernel, ⟨0, 0⟩, by decide +kernel, rfl⟩

theorem in_turn_sampleEnd : (sampleEnd.world.allotted "250314").map (·.sequence) = [1, 1] ∧
    (∀ i (a : Allocation), (sampleEnd.world.allotted "250314")[i]? = some a → a.IsAt 1 (0 + i)) ∧
    (⟨"250314", 1, .digit 2, true⟩ : Allocation).IsAt 1 2 := by
  have opening : sample.Opening := by
    refine ⟨fun _ => rfl, rfl, fun h => ?_, fun h => ?_⟩ <;> cases h
  obtain ⟨isAt, -, next⟩ :=
    Runs.in_turn (by decide) opening RollCycle.isRecord_none runs_sampleEnd
  have two : (sampleEnd.world.allotted "250314").length = 2 := by decide +kernel
  obtain ⟨w, returns⟩ := returns_sampleEnd
  refine ⟨by decide +kernel, isAt, ?_⟩
  have := (next _ _ _ _ _ returns (by decide +kernel) rfl).2
  rwa [two] at this

end Floor

end Docket
