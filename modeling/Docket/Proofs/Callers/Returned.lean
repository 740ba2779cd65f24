import Docket.Proofs.Callers.Runs
import Docket.Proofs.Issue.Outcomes

/-!
# What an allocation returns is what it notes

* `Work.Notes`: what work notes on its way to a value, whatever it is answered;
* `Series.notes_allocate`, **`Series.notes_of_allocate`**: an allocation notes one thing, and returns
  that;
* `Floor.Returns`, **`Floor.Traced.returns`**: the next allocation of a caller, with nobody between.
-/

namespace Docket

variable {α β : Type} {s : Series} {now : Time} {w w' : World} {t : Tx} {a : Allocation}
  {key : String}

/-! ## Notes -/

theorem World.notes_touch (w : World) (t : Tx) (c : Touch) : (w.touch t c).2.notes = w.notes := by
  have asked := (w.still_submitTouch c).notes
  unfold touch
  generalize w.submitTouch c = reply at asked
  match reply with
  | (some _, v) => exact asked
  | (none, v) =>
    show (v.reach t c).2.notes = w.notes
    rcases v.reach_cases t c with ⟨_, h⟩ | ⟨_, -, -, h⟩ | ⟨-, -, h⟩ <;> rw [h] <;> exact asked

namespace Work

/-- Whether `Q` holds of each value that work may give and of what it has noted until then. -/
def Notes (Q : α → List Allocation → Prop) : Work α → Prop
  | .done a => Q a []
  | .fail _ => True
  | .now next => ∀ time, (next time).Notes Q
  | .draw _ next => ∀ words, (next words).Notes Q
  | .note a next => next.Notes fun b noted => Q b (a :: noted)
  | .touch _ next => ∀ answer, (next answer).Notes Q

theorem Notes.bind {work : Work α} {f : α → Work β} {Q : α → List Allocation → Prop}
    {R : β → List Allocation → Prop} (h : work.Notes Q)
    (hf : ∀ a noted, Q a noted → (f a).Notes fun b more => R b (noted ++ more)) :
    (work.bind f).Notes R := by
  induction work generalizing Q R with
  | done a => exact hf a [] h
  | fail => trivial
  | now next ih => exact fun time => ih time (h time) hf
  | draw n next ih => exact fun words => ih words (h words) hf
  | note a next ih => exact ih h fun b noted => hf b (a :: noted)
  | touch c next ih => exact fun answer => ih answer (h answer) hf

theorem Notes.run {work : Work α} {a : α} {Q : α → List Allocation → Prop} (h : work.Notes Q)
    (run : work.run t w = (.finished (.ok a), w')) :
    ∃ noted, Q a noted ∧ w'.notes = noted.reverse ++ w.notes := by
  induction work generalizing w Q with
  | done => cases run; exact ⟨[], h, rfl⟩
  | fail => cases run
  | now next ih => exact ih _ (h _) run
  | draw n next ih => exact ih _ (w := (w.takeWords n).2) (h _) run
  | note b next ih =>
    obtain ⟨noted, hQ, e⟩ := ih h run
    exact ⟨b :: noted, hQ, by rw [e, List.reverse_cons, List.append_assoc]; rfl⟩
  | touch c next ih =>
    rw [Work.run] at run
    split at run
    · next answer v touched =>
      obtain ⟨noted, hQ, e⟩ := ih answer (h answer) run
      rw [← World.notes_touch w t c, touched]
      exact ⟨noted, hQ, e⟩
    all_goals cases run

end Work

namespace Series

/-- An allocation notes one thing, and that is what it returns. -/
theorem notes_allocate : (s.allocate now).Notes fun a noted => noted = [a] := by
  have silent : ∀ words, (s.freshen (s.key now) (s.seed now words) now).Notes
      fun _ noted => noted = [] := by
    intro words
    unfold freshen
    split
    · rintro (_ | c)
      · rfl
      · show (ite _ _ _ : Work Bool).Notes _
        split
        · exact fun _ => rfl
        · rfl
    · rfl
  have settles : ∀ rotated c, (s.settle now rotated c).Notes fun a noted => noted = [a] := by
    intro rotated c
    unfold settle advance
    split
    · split
      · split
        · trivial
        · exact fun _ => rfl
      · rfl
    · rfl
  rw [allocate_eq]
  refine fun words => (silent words).bind fun rotated noted none c => ?_
  rw [none]
  exact settles rotated c

/-- **What an allocation returns is what it notes**: the latest note is the allocation returned, it
is under the key of the time, and the others were there before. -/
theorem notes_of_allocate (run : (s.allocate now).run t w = (.finished (.ok a), w')) :
    w'.notes = a :: w.notes ∧ a.key = s.key now := by
  obtain ⟨_, rfl, e⟩ := notes_allocate.run run
  exact ⟨e, key_of_allocate (Work.mayGive_of_run run)⟩

theorem allotted_of_allocate (hk : s.key now = key)
    (run : (s.allocate now).run t w = (.finished (.ok a), w')) :
    w'.allotted key = w.allotted key ++ [a] := by
  obtain ⟨notes, under⟩ := notes_of_allocate run
  unfold World.allotted
  rw [notes, List.filter_cons_of_pos (by simpa using under.trans hk), List.reverse_cons]

end Series

/-! ## What is under the key -/

/-- Whether `Q` holds of each value that work may give and of what is under a key then, if nobody
else changes that. -/
def Work.Leads (key : String) (Q : α → KeyState → Prop) : Work α → KeyState → Prop
  | .done a, σ => Q a σ
  | .fail _, _ => True
  | .now next, σ => ∀ time, (next time).Leads key Q σ
  | .draw _ next, σ => ∀ words, (next words).Leads key Q σ
  | .note a next, σ => next.Leads key Q (if a.key = key then σ.note a else σ)
  | .touch c next, σ => ∀ answer,
    if c.key? = some key then
      c.answer σ.record false = .ok answer → (next answer).Leads key Q (σ.after c)
    else (next answer).Leads key Q σ

namespace Work.Leads

variable {c : Touch} {next : c.Answer → Work α} {Q : α → KeyState → Prop} {σ : KeyState}

theorem of_touch (hk : c.key? = some key)
    (h : ∀ answer, c.answer σ.record false = .ok answer → (next answer).Leads key Q (σ.after c)) :
    (Work.touch c next).Leads key Q σ := by
  intro answer
  rw [if_pos hk]
  exact h answer

theorem of_note {next : Work α} (ha : a.key = key) (h : next.Leads key Q (σ.note a)) :
    (Work.note a next).Leads key Q σ := by
  rwa [Work.Leads, if_pos ha]

/-- A call on the key that is answered shows in what is under it, and any other does not. -/
theorem reach {answer : c.Answer} (h : (Work.touch c next).Leads key Q σ) (shows : w.Shows key σ)
    (reached : w.reach t c = (.answer (.ok answer), w')) :
    (next answer).Leads key Q (σ.seen w' key) := by
  have h := h answer
  rcases w.reach_cases t c with ⟨e, he⟩ | ⟨locks, -, -, he⟩ | ⟨-, -, he⟩ <;>
    rw [he, Prod.mk.injEq] at reached
  · cases reached.1
  · obtain ⟨given, rfl⟩ := reached
    replace given := Reply.answer.inj given
    by_cases hk : c.key? = some key
    · have record : w.ledger.record? c = σ.record := by
        rw [Ledger.record?, hk, ← shows.1]; rfl
      have knows : w.ledger.knows c = false := by
        cases c with
        | recorded => cases hk
        | _ => rfl
      rw [if_pos hk] at h
      rw [shows.seen_wrote locks hk]
      exact h (by rw [← given, record, knows])
    · rw [if_neg hk] at h
      rwa [shows.seen_of_same (World.keyState_wrote_of_ne w locks hk)]
  · cases reached.1

end Work.Leads

namespace Floor

variable {may : Job → Prop} {f g : Floor} {σ : KeyState} {i : Nat} {task task' : Task Unit}
  {limit : Span} {deadline : Nat} {next : Except Error Candidate → Plan Unit}

theorem Traced.act (traced : Traced may key f σ g) (here : g.callers i = task)
    (step : task.step? g.world = some (task', w)) :
    ∃ g', Traced may key f (σ.seen w key) g' ∧ g'.world = w ∧ g'.callers i = task' := by
  subst here
  refine ⟨_, traced.step (.act step), rfl, ?_⟩
  simp [put, give]

theorem Traced.pass (traced : Traced may key f σ g) (here : g.callers i = task)
    (step : task.step? g.world = some (task', w)) (same : w.keyState key = g.world.keyState key) :
    ∃ g', Traced may key f σ g' ∧ g'.world = w ∧ g'.callers i = task' := by
  rw [← traced.shows.seen_of_same same]
  exact traced.act here step

/-- A call that is answered at once can be made, in one step or two. -/
theorem Traced.touch {c : Touch} {rest : c.Answer → Work Candidate} {answer : c.Answer}
    (traced : Traced may key f σ g)
    (here : g.callers i = .working t limit deadline (.touch c rest) next)
    (touched : g.world.touch t c = (.answer (.ok answer), w)) :
    ∃ σ' g', Traced may key f σ' g' ∧ g'.world = w ∧
      g'.callers i = .working t limit deadline (rest answer) next ∧
      ∀ {α : Type} (Q : α → KeyState → Prop) (work : c.Answer → Work α),
        (Work.touch c work).Leads key Q σ → (work answer).Leads key Q σ' := by
  have still := g.world.still_submitTouch c
  rcases hs : g.world.submitTouch c with ⟨_ | reply, u⟩ <;> rw [World.touch, hs] at touched <;>
    rw [hs] at still
  · -- The script lets the call pass, so the task reaches for the key first.
    have asks : (Task.working t limit deadline (.touch c rest) next).step? g.world =
        some (.reaching t limit deadline c rest next, u) := by
      rw [Task.step?, Task.stepWork, hs]
    obtain ⟨g₁, traced₁, world₁, here₁⟩ := traced.pass here asks still.keyState
    subst world₁
    replace touched : g₁.world.reach t c = _ := touched
    have answered : (Task.reaching t limit deadline c rest next).step? g₁.world =
        some (.working t limit deadline (rest answer) next, w) := by
      rw [Task.step?, touched]
      rfl
    obtain ⟨g₂, traced₂, world₂, here₂⟩ := traced₁.act here₁ answered
    refine ⟨_, g₂, traced₂, world₂, here₂, fun Q work h => ?_⟩
    exact h.reach traced₁.shows touched
  · obtain ⟨rfl, rfl⟩ := Prod.mk.inj touched
    have away : c.key? ≠ some key := by simp [World.key?_of_submitTouch hs]
    have answered : (Task.working t limit deadline (.touch c rest) next).step? g.world =
        some (.working t limit deadline (rest answer) next, u) := by
      rw [Task.step?, Task.stepWork, hs]
      rfl
    obtain ⟨g₁, traced₁, world₁, here₁⟩ := traced.pass here answered still.keyState
    refine ⟨σ, g₁, traced₁, world₁, here₁, fun Q work h => ?_⟩
    have h := h answer
    rwa [if_neg away] at h

/-- **A caller at work** can go on with it as if it were alone, until it has a value. -/
theorem Traced.goesOn {work : Work α} {rest : α → Work Candidate} {a : α}
    (traced : Traced may key f σ g)
    (here : g.callers i = .working t limit deadline (work.bind rest) next)
    (run : work.run t g.world = (.finished (.ok a), w)) :
    ∃ σ' g', Traced may key f σ' g' ∧ g'.world = w ∧
      ∀ Q : α → KeyState → Prop, work.Leads key Q σ → Q a σ' := by
  induction work generalizing σ g with
  | done b =>
    cases run
    exact ⟨σ, g, traced, rfl, fun Q h => h⟩
  | fail => cases run
  | now rest' ih =>
    obtain ⟨g₁, traced₁, world₁, here₁⟩ := traced.pass here rfl rfl
    obtain ⟨σ', g', traced', world, leads⟩ := ih _ traced₁ here₁ (by rw [world₁]; exact run)
    exact ⟨σ', g', traced', world, fun Q h => leads Q (h _)⟩
  | draw n rest' ih =>
    obtain ⟨g₁, traced₁, world₁, here₁⟩ := traced.pass here rfl rfl
    obtain ⟨σ', g', traced', world, leads⟩ := ih _ traced₁ here₁ (by rw [world₁]; exact run)
    exact ⟨σ', g', traced', world, fun Q h => leads Q (h _)⟩
  | note b rest' ih =>
    obtain ⟨g₁, traced₁, world₁, here₁⟩ := traced.act here rfl
    obtain ⟨σ', g', traced', world, leads⟩ := ih traced₁ here₁ (by rw [world₁]; exact run)
    refine ⟨σ', g', traced', world, fun Q h => leads Q ?_⟩
    rw [Work.Leads] at h
    split at h
    · next under => rwa [traced.shows.seen_note under]
    · next under => rwa [traced.shows.seen_of_same (World.keyState_note_of_ne under)]
  | touch c rest' ih =>
    rw [Work.run] at run
    split at run
    · next answer v touched =>
      obtain ⟨σ₁, g₁, traced₁, world₁, here₁, leads₁⟩ := traced.touch here touched
      obtain ⟨σ', g', traced', world, leads⟩ := ih _ traced₁ here₁ (by rw [world₁]; exact run)
      exact ⟨σ', g', traced', world, fun Q h => leads Q (leads₁ Q rest' h)⟩
    all_goals cases run

/-! ## The next allocation -/

/-- A caller that has nothing else to do allocates, with nobody between, and the allocation returns
`a` and leaves a world. -/
structure Returns (f : Floor) (i : Nat) (s : Series) (now : Time) (a : Allocation) (w : World) :
    Prop where
  idle : (f.callers i).value?.isSome
  run : ∃ t, f.hand i = some t ∧ (s.allocate now).run t f.world = (.finished (.ok a), w)

/-- **The next allocation** is one that the floor comes to. It returns what is noted under its
key. -/
theorem Traced.returns (traced : Traced may key f σ g) (h : g.Returns i s now a w)
    (hk : s.key now = key) (allowed : ∀ limit t, may (.allocate s now limit t)) :
    w.allotted key = g.world.allotted key ++ [a] ∧
    ∃ σ' g', Traced may key f σ' g' ∧ g'.world = w ∧
      ∀ Q : Allocation → KeyState → Prop, (s.allocate now).Leads key Q σ → Q a σ' := by
  obtain ⟨t, hand, run⟩ := h.run
  refine ⟨Series.allotted_of_allocate hk run, ?_⟩
  -- The caller asks, and its attempt begins; neither changes anything under the key.
  let job : Job := .allocate s now ⟨0⟩ t
  have asks : Step may g (g.put i (.planned job.plan) g.world) :=
    .ask h.idle hand.symm (allowed ⟨0⟩ t)
  have same : σ.seen g.world key = σ := traced.shows.seen_of_same rfl
  have asked : Traced may key f σ (g.put i (.planned job.plan) g.world) := same ▸ traced.step asks
  obtain ⟨g', begun, world, here⟩ := asked.pass (i := i) (Function.update_self ..) rfl rfl
  exact begun.goesOn here (by rw [world]; exact run)

end Floor

end Docket
