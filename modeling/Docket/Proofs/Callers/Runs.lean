import Docket.Proofs.Callers.Guard

/-!
# An invariant of a key over any run

* `Floor.Sound`: every caller is sound, and the invariant holds unless one of them knows better;
* **`Floor.Sound.step`**, `Floor.Traced.sound`: guarded jobs keep a floor sound;
* `Work.Guarded.ahead`, **`Floor.Traced.ahead`**: wherever a run stops, but for allocations yet to be
  noted the invariant holds.
-/

namespace Docket

open KeyState (Possible)

variable {key : String} {I : KeyState → Prop}

/-! ## Hands -/

namespace Task

variable {α : Type} {w w' : World} {hand hand' : Option Tx} {known : Option KeyState}
  {task task' : Task α} {t : Tx} {σ : KeyState}

theorem handed_eq_some (hs : task.step? w = some (task', w'))
    (ht : task.handed w hand = some t) :
    hand = some t ∨ t = ⟨w.ledger.name, w.ledger.begun⟩ ∧ w.ledger.begun < w'.ledger.begun := by
  unfold handed at ht
  split at ht
  · next next =>
    simp only [step?, stepPlan?] at hs
    rcases w.start_cases with ⟨e, w₁, -, h⟩ | ⟨w₁, -, h⟩ | ⟨w₁, still, h⟩ <;>
      rw [h] at hs ht <;> cases hs
    · exact .inl ht
    · exact .inl ht
    · rw [← still.ledger]
      exact .inr ⟨(Option.some.inj ht).symm, Nat.lt_succ_self _⟩
  · split at ht
    · cases ht
    · exact .inl ht
  · exact .inl ht

theorem Sound.kept (h : task.Sound key I w σ hand' known) (kept : w.Kept key hand w')
    (ne : ∀ t, hand' = some t → hand ≠ some t) :
    task.Sound key I w' (σ.seen w' key) hand' known where
  guarded := h.guarded
  shows := w'.shows_seen σ
  known σ' hσ := by
    obtain ⟨rfl, t, ht, own⟩ := h.known σ' hσ
    obtain ⟨own', same⟩ := kept.owns t (ne t ht) own
    exact ⟨h.shows.seen_of_same same, t, ht, own'⟩
  queue := by
    cases task with
    | queued t => exact kept.isOpen t (ne t h.guarded.1) h.queue
    | _ => trivial

end Task

/-! ## Sound floors -/

namespace Floor

variable {f f' : Floor} {know : Nat → Option KeyState} {may : Job → Prop} {i : Nat}
  {task : Task Unit} {w : World} {hand : Option Tx} {σ : KeyState}

/-- Every caller is sound, no transaction is in the hands of two, and the invariant of the key holds
unless a caller knows better. -/
structure Sound (key : String) (I : KeyState → Prop) (know : Nat → Option KeyState) (σ : KeyState)
    (f : Floor) : Prop where
  tasks : ∀ i, (f.callers i).Sound key I f.world σ (f.hand i) (know i)
  apart : ∀ {i j t}, f.hand i = some t → f.hand j = some t → i = j
  begun : ∀ {i t}, f.hand i = some t → t.ledger = f.world.ledger.name →
    t.serial < f.world.ledger.begun
  rest : (∀ i, know i = none) → I σ

theorem give_self (f : Floor) (i : Nat) : f.give i (f.hand i) = f := by
  rw [give, Function.update_eq_self]

theorem Sound.fits (h : f.Sound key I know σ) (i : Nat)
    (clear : f.world.Clear key (f.hand i)) : Possible I (know i) σ := by
  cases hi : know i with
  | some σ' => exact ((h.tasks i).known σ' hi).1
  | none =>
    refine h.rest fun j => ?_
    by_contra hj
    obtain ⟨σ', hσ⟩ := Option.ne_none_iff_exists'.mp hj
    obtain ⟨-, t, ht, own⟩ := (h.tasks j).known σ' hσ
    refine clear t (fun hit => ?_) own
    rw [h.apart hit ht, hσ] at hi
    cases hi

/-- Whoever holds the key besides this caller, nobody knows better. -/
theorem Sound.know_eq_none (h : f.Sound key I know σ) {i : Nat} {t : Tx} (ne : f.hand i ≠ some t)
    (own : f.world.Owns t key) (others : ∀ j, j ≠ i → know j = none) : ∀ j, know j = none := by
  intro j
  by_cases hj : j = i
  · subst hj
    by_contra hk
    obtain ⟨σ', hσ⟩ := Option.ne_none_iff_exists'.mp hk
    obtain ⟨-, u, hu, own'⟩ := (h.tasks j).known σ' hσ
    exact ne (own.unique own' ▸ hu)
  · exact others j hj

theorem Sound.arrives (h : f.Sound key I know σ)
    (ha : Task.Arrives key I f.world w σ (f.hand i) hand task)
    (fresh : ∀ t, hand = some t → f.hand i = some t ∨
      t = ⟨f.world.ledger.name, f.world.ledger.begun⟩ ∧
        f.world.ledger.begun < w.ledger.begun) :
    ∃ know, ((f.put i task w).give i hand).Sound key I know (σ.seen w key) := by
  obtain ⟨kept, known, sound, fits⟩ := ha
  -- A transaction that is new in the caller's hands is in nobody else's.
  have old : ∀ {j t}, f.hand j = some t → hand = some t → i = j := by
    intro j t hj ht
    rcases fresh t ht with hi | ⟨rfl, -⟩
    · exact h.apart hi hj
    · exact absurd (h.begun hj rfl) (Nat.lt_irrefl _)
  refine ⟨Function.update know i known, fun j => ?_, fun {j k t} hj hk => ?_,
    fun {j t} hj name => ?_, fun all => ?_⟩
  · by_cases hj : j = i
    · subst hj
      simpa only [put, give, Function.update_self] using sound
    · simp only [put, give, Function.update_of_ne hj]
      exact (h.tasks j).kept kept fun t ht hi => hj (h.apart ht hi)
  · simp only [give, put, Function.update_apply] at hj hk
    split at hj <;> split at hk
    · next e e' => exact e.trans e'.symm
    · next e _ => exact e.trans (old hk hj)
    · next _ e => exact (e.trans (old hj hk)).symm
    · exact h.apart hj hk
  · simp only [give, put, Function.update_apply] at hj name ⊢
    rw [kept.name] at name
    split at hj
    · rcases fresh t hj with hi | ⟨rfl, lt⟩
      · exact Nat.lt_of_lt_of_le (h.begun hi name) kept.begun
      · exact lt
    · exact Nat.lt_of_lt_of_le (h.begun hj name) kept.begun
  · have none : known = none := by simpa using all i
    have others : ∀ j, j ≠ i → know j = .none := fun j hj => by
      simpa [Function.update_of_ne hj] using all j
    -- Whoever else holds the key has kept what is under it, and nobody knew better.
    by_cases clear : f.world.Clear key (f.hand i)
    · subst none; exact fits clear
    · obtain ⟨t, ne, own⟩ : ∃ t, f.hand i ≠ some t ∧ f.world.Owns t key := by
        simpa [World.Clear] using clear
      rw [(h.tasks i).shows.seen_of_same (kept.owns t ne own).2]
      exact h.rest (h.know_eq_none ne own others)

theorem Sound.put (h : f.Sound key I know σ)
    (ha : Task.Arrives key I f.world w σ (f.hand i) (f.hand i) task) :
    ∃ know, (f.put i task w).Sound key I know (σ.seen w key) := by
  have := h.arrives ha fun t ht => .inl ht
  rwa [← give_self (f.put i task w) i]

theorem Sound.world (h : f.Sound key I know σ) (kept : f.world.Kept key none w)
    (same : w.keyState key = f.world.keyState key) :
    { f with world := w }.Sound key I know (σ.seen w key) where
  tasks i := (h.tasks i).kept kept nofun
  apart := h.apart
  begun ht name := Nat.lt_of_lt_of_le (h.begun ht (kept.name ▸ name)) kept.begun
  rest all := ((h.tasks 0).shows.seen_of_same same).symm ▸ h.rest all

/-- **One step of one caller** keeps a floor sound. -/
theorem Sound.step (safe : ∀ job, may job → job.plan.Safe key I job.tx?)
    (h : f.Sound key I know σ) (hs : Step may f f') :
    ∃ know, f'.Sound key I know (σ.seen f'.world key) := by
  have fits i := h.fits (i := i)
  cases hs with
  | @ask i job idle hand allowed =>
    have none : know i = none := by
      have := (h.tasks i).guarded
      cases hc : f.callers i with
      | planned p => rw [hc] at this; exact this.1
      | _ => rw [hc] at idle; cases idle
    have fit := fits i
    rw [none] at fit
    exact h.put
      (.of_still ⟨rfl, rfl⟩ (h.tasks i).shows ⟨rfl, hand ▸ safe job allowed⟩ trivial fit)
  | @act i task w next =>
    exact h.arrives ((h.tasks i).step (fits i) next) fun t => Task.handed_eq_some next
  | @giveUp i task w waits next => exact h.put ((h.tasks i).giveUp waits (fits i) next)
  | @drop i waits => exact h.put ((h.tasks i).drop waits (fits i) trivial)
  | record field values => exact ⟨know, h.world .records rfl⟩
  | shift ledger notes =>
    have still : f.world.Still _ := ⟨ledger, notes⟩
    exact ⟨know, h.world still.kept still.keyState⟩

/-! ## Runs with what they leave -/

/-- A run, with what is under a key at its end and was there before. -/
inductive Traced (may : Job → Prop) (key : String) (f : Floor) : KeyState → Floor → Prop
  | start : Traced may key f (f.world.keyState key) f
  | step {σ : KeyState} {g g' : Floor} (before : Traced may key f σ g) (step : Step may g g') :
    Traced may key f (σ.seen g'.world key) g'

theorem Runs.traced (runs : Runs may f f') (key : String) : ∃ σ, Traced may key f σ f' := by
  induction runs with
  | refl => exact ⟨_, .start⟩
  | tail _ s ih =>
    obtain ⟨σ, traced⟩ := ih
    exact ⟨_, traced.step s⟩

theorem Traced.shows (traced : Traced may key f σ f') : f'.world.Shows key σ := by
  cases traced with
  | start => exact World.shows_keyState _
  | step => exact World.shows_seen _ _

/-- What is under a key after callers have had their turns in an order. -/
def seenOver (key : String) : List Nat → KeyState → Floor → KeyState
  | [], σ, _ => σ
  | i :: order, σ, f => seenOver key order (σ.seen (f.turn i).world key) (f.turn i)

theorem Traced.turns (traced : Traced may key f σ f') (order : List Nat) :
    Traced may key f (seenOver key order σ f') (f'.turns order) := by
  induction order generalizing σ f' with
  | nil => exact traced
  | cons i order ih =>
    have next : Traced may key f (σ.seen (f'.turn i).world key) (f'.turn i) := by
      unfold turn
      split
      · next h => exact traced.step (.act h)
      · rwa [traced.shows.seen_of_same rfl]
    exact ih next

/-- What is under a key, and the floor, after a caller has done a job, if it may begin one and has
the transaction for it in its hands. -/
def seenDoing (key : String) (i turns : Nat) (p : KeyState × Floor) (job : Job) :
    KeyState × Floor :=
  if (p.2.callers i).value?.isSome ∧ job.tx? = p.2.hand i then
    (seenOver key (List.replicate turns i) p.1 (p.2.put i (.planned job.plan) p.2.world),
      p.2.doing i job turns)
  else p

theorem Traced.seenDoing {p : KeyState × Floor} {job : Job} (traced : Traced may key f p.1 p.2)
    (allowed : may job) (i turns : Nat) :
    Traced may key f (seenDoing key i turns p job).1 (seenDoing key i turns p job).2 := by
  unfold Floor.seenDoing
  split
  · next h =>
    have asked := traced.step (.ask h.1 h.2 allowed)
    have same : p.1.seen (p.2.put i (.planned job.plan) p.2.world).world key = p.1 :=
      traced.shows.seen_of_same rfl
    rw [same] at asked
    exact asked.turns _
  · exact traced

theorem Traced.sound (safe : ∀ job, may job → job.plan.Safe key I job.tx?)
    (traced : Traced may key f σ f') (h : f.Sound key I know (f.world.keyState key)) :
    ∃ know, f'.Sound key I know σ := by
  induction traced with
  | start => exact ⟨know, h⟩
  | step _ s ih =>
    obtain ⟨know, h⟩ := ih
    exact h.step safe s

theorem Opening.sound (h : f.Opening) (hI : I (f.world.keyState key)) :
    f.Sound key I (fun _ => none) (f.world.keyState key) where
  tasks i := by
    have := h.idle i
    cases hc : f.callers i with
    | planned p =>
      rw [hc] at this
      cases p with
      | done => exact ⟨⟨rfl, trivial⟩, World.shows_keyState _, nofun, trivial⟩
      | _ => cases this
    | _ => rw [hc] at this; cases this
  apart := h.apart
  begun := h.begun
  rest _ := hI

end Floor

/-! ## Wherever a run stops -/

/-- The state after some allocations more are noted. -/
abbrev KeyState.Ahead : KeyState → KeyState → Prop :=
  Relation.ReflTransGen fun σ σ' => ∃ a, σ' = σ.note a

theorem KeyState.Ahead.allotted {σ σ' : KeyState} (h : σ.Ahead σ') :
    σ.allotted <+: σ'.allotted := by
  induction h with
  | refl => exact List.prefix_rfl
  | tail _ s ih =>
    obtain ⟨a, rfl⟩ := s
    exact ih.trans (List.prefix_append _ _)

/-- Guarded work comes to a state that satisfies the invariant by noting allocations alone. -/
theorem Work.Guarded.ahead {α : Type} (now : Time) {work : Work α} {σ : KeyState}
    (h : work.Guarded key I (some σ)) : ∃ σ', I σ' ∧ σ.Ahead σ' := by
  induction work generalizing σ with
  | done | fail => exact ⟨σ, h σ rfl, .refl⟩
  | now next ih => exact ih now (h now)
  | draw n next ih => exact ih [] (h [])
  | note a next ih =>
    by_cases ha : a.key = key
    · rw [Work.Guarded, if_pos ha] at h
      obtain ⟨_, e, h⟩ := h
      cases e
      obtain ⟨σ', hI, ahead⟩ := ih h
      exact ⟨σ', hI, .head ⟨a, rfl⟩ ahead⟩
    · rw [Work.Guarded, if_neg ha] at h
      exact ih h
  | touch c next => exact ⟨σ, h.1 σ rfl, .refl⟩

/-- **Wherever a run stops**, what is under the key comes to a state that satisfies the invariant by
noting allocations alone. -/
theorem Floor.Traced.ahead {f f' : Floor} {may : Job → Prop} {σ : KeyState}
    (traced : Traced may key f σ f') (safe : ∀ job, may job → job.plan.Safe key I job.tx?)
    (opening : f.Opening) (hI : I (f.world.keyState key)) : ∃ σ', I σ' ∧ σ.Ahead σ' := by
  obtain ⟨know, h⟩ := traced.sound safe (opening.sound hI)
  by_cases all : ∀ i, know i = none
  · exact ⟨_, h.rest all, .refl⟩
  · obtain ⟨i, hi⟩ := not_forall.mp all
    obtain ⟨σ', hσ⟩ := Option.ne_none_iff_exists'.mp hi
    have sound := h.tasks i
    obtain ⟨rfl, -⟩ := sound.known σ' hσ
    have guarded := sound.guarded
    rw [hσ] at guarded
    cases hc : f'.callers i with
    | working t limit deadline work next => rw [hc] at guarded; exact guarded.2.1.ahead f'.world.now
    | reaching t limit deadline c rest next | queued t limit deadline c rest next =>
      rw [hc] at guarded
      exact guarded.2.1.ahead f'.world.now
    | planned p | asleep wake p | aside p => rw [hc] at guarded; cases guarded.1
    | stalled => rw [hc] at guarded; cases guarded.1
    | lost => rw [hc] at guarded; cases guarded

end Docket
