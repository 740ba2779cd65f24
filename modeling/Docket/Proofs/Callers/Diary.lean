import Docket.Proofs.Callers.Owner
import Mathlib.Data.List.Chain

/-!
# The diary of a key

* `KeyState.views`: what is under a key and was there before;
* `Entry`, **`KeyState.diary`**: the allocations completed under the key, each with the time of the
  record then; `KeyState.diary_after`, **`KeyState.diary_note_increment`**: a call adds nothing, and
  an addition that is noted adds an entry with its own time.
-/

namespace Docket

/-- An allocation, and the time at which it was made. -/
structure Entry where
  time : Time
  allocation : Allocation
deriving DecidableEq, Repr

namespace KeyState

/-- What is under the key, and what was there before, latest first. -/
def views (σ : KeyState) : List (Option Counter × List Allocation) :=
  (σ.record, σ.allotted) :: σ.past

/-- The allocations completed from view to view. Whoever completes one has just written the record,
so the record tells the time. -/
def entries : List (Option Counter × List Allocation) → List Entry
  | (record, allotted) :: before :: past =>
    entries (before :: past) ++
      record.toList.flatMap fun c => (allotted.drop before.2.length).map (Entry.mk c.written)
  | _ => []

/-- The allocations completed under the key, in order. -/
def diary (σ : KeyState) : List Entry := entries σ.views

/-- Whether the times at which records were written have one offset and never decrease. -/
structure Onward (offset : Int) (views : List (Option Counter × List Allocation)) : Prop where
  clock : ∀ v ∈ views, ∀ c ∈ v.1, c.written.offset = offset
  forward : views.IsChain fun new old =>
    ∀ c ∈ old.1, ∀ c' ∈ new.1, c.written.instant ≤ c'.written.instant

instance (offset : Int) (views : List (Option Counter × List Allocation)) :
    Decidable (Onward offset views) :=
  decidable_of_iff
    ((∀ v ∈ views, ∀ c ∈ v.1, c.written.offset = offset) ∧ views.IsChain fun new old =>
      ∀ c ∈ old.1, ∀ c' ∈ new.1, c.written.instant ≤ c'.written.instant)
    ⟨fun h => ⟨h.1, h.2⟩, fun h => ⟨h.clock, h.forward⟩⟩

abbrev IsOnward (offset : Int) (σ : KeyState) : Prop := Onward offset σ.views

variable {σ : KeyState} {record : Option Counter} {allotted : List Allocation} {c : Touch}
  {a : Allocation} {offset : Int}

theorem views_turned : (σ.turned record allotted).views =
    if (record, allotted) = (σ.record, σ.allotted) then σ.views
    else (record, allotted) :: σ.views := by
  unfold views turned
  split
  · next same => rw [same]
  · rfl

theorem diary_turned : (σ.turned record allotted).diary = σ.diary ++
    record.toList.flatMap fun c => (allotted.drop σ.allotted.length).map (Entry.mk c.written) := by
  unfold diary
  rw [views_turned]
  split
  · next same =>
    obtain ⟨rfl, rfl⟩ := Prod.mk.inj same
    simp
  · rfl

@[simp]
theorem diary_after : (σ.after c).diary = σ.diary := by simp [after, diary_turned]

theorem diary_note {c : Counter} (h : σ.record = some c) :
    (σ.note a).diary = σ.diary ++ [⟨c.written, a⟩] := by
  simp [note, diary_turned, h]

/-- **An allocation is dated by its own time**: an addition and the note add an entry with the time
of the addition. -/
theorem diary_note_increment {key : String} {step n : UInt64} {seed : Mark} {now : Time}
    (hn : Touch.sum? key step seed now σ.record = some n) :
    ((σ.after (.increment key step seed now)).note a).diary = σ.diary ++ [⟨now, a⟩] := by
  rw [diary_note (Touch.leaves_increment hn), diary_after]
  rfl

/-! ## The clock -/

theorem onward_cons_cons_iff {new old : Option Counter × List Allocation}
    {past : List (Option Counter × List Allocation)} :
    Onward offset (new :: old :: past) ↔ Onward offset (old :: past) ∧
      ∀ c' ∈ new.1, c'.written.offset = offset ∧
        ∀ c ∈ old.1, c.written.instant ≤ c'.written.instant := by
  constructor
  · rintro ⟨clock, forward⟩
    obtain ⟨step, forward⟩ := List.isChain_cons_cons.mp forward
    exact ⟨⟨fun v hv => clock v (List.mem_cons_of_mem _ hv), forward⟩,
      fun c' hc => ⟨clock new List.mem_cons_self c' hc, fun c hc' => step c hc' c' hc⟩⟩
  · rintro ⟨⟨clock, forward⟩, h⟩
    exact ⟨List.forall_mem_cons.mpr ⟨fun c' hc => (h c' hc).1, clock⟩,
      List.isChain_cons_cons.mpr ⟨fun c hc c' hc' => (h c' hc').2 c hc, forward⟩⟩

theorem IsOnward.stays (h : σ.IsOnward offset) : ∀ c' ∈ σ.record, c'.written.offset = offset ∧
    ∀ c ∈ σ.record, c.written.instant ≤ c'.written.instant := by
  intro c' hc
  refine ⟨h.clock _ List.mem_cons_self c' hc, fun c hc' => ?_⟩
  obtain rfl := Option.mem_unique hc hc'
  exact Int.le_refl _

theorem isOnward_turned_iff : (σ.turned record allotted).IsOnward offset ↔ σ.IsOnward offset ∧
    ∀ c' ∈ record, c'.written.offset = offset ∧
      ∀ c ∈ σ.record, c.written.instant ≤ c'.written.instant := by
  unfold IsOnward
  rw [views_turned]
  split
  · next same =>
    obtain ⟨rfl, -⟩ := Prod.mk.inj same
    exact ⟨fun h => ⟨h, IsOnward.stays h⟩, And.left⟩
  · exact onward_cons_cons_iff

theorem IsOnward.note (h : σ.IsOnward offset) : (σ.note a).IsOnward offset :=
  isOnward_turned_iff.mpr ⟨h, h.stays⟩

end KeyState

end Docket
