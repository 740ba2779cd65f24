import Docket.Proofs.Callers.Owner

/-!
# A key between transactions

A transaction that holds a key is alone with the record under it. So an invariant of a key, which
holds whenever nobody is in the middle of a change, may be assumed where a transaction first comes
to the key, and has to hold again wherever its attempt may be left.

* `Work.Guarded`, `Plan.Guarded`, `Task.Guarded`: what keeps an invariant of a key in this way;
* **`Task.Sound.step`**, `Task.Sound.giveUp`, `Task.Sound.drop`: steps of a task that does.
-/

namespace Docket

/-- The states that are possible: the one that is known, or those that satisfy the invariant. -/
def KeyState.Possible (I : KeyState → Prop) (known : Option KeyState) (σ : KeyState) : Prop :=
  match known with
  | some σ' => σ = σ'
  | none => I σ

open KeyState (Possible)

section Guarded

variable (key : String) (I : KeyState → Prop) {α : Type}

/-- Work that keeps the invariant wherever it may be left, given what is known at its start. -/
def Work.Guarded : Work α → Option KeyState → Prop
  | .done _, known | .fail _, known => ∀ σ, Possible I known σ → I σ
  | .now next, known => ∀ t, (next t).Guarded known
  | .draw _ next, known => ∀ words, (next words).Guarded known
  | .note a next, known =>
    if a.key = key then ∃ σ, known = some σ ∧ next.Guarded (some (σ.note a))
    else next.Guarded known
  | .touch c next, known => (∀ σ, Possible I known σ → I σ) ∧
    if c.key? = some key then
      ∀ σ a, Possible I known σ → c.answer σ.record false = .ok a →
        (next a).Guarded (some (σ.after c))
    else ∀ a, (next a).Guarded known

/-- A plan all of whose attempts are guarded, and which works in the transaction in its caller's
hands only. At its end `Q` holds of its value and of what is in those hands then. -/
def Plan.Guarded (Q : α → Option Tx → Prop) : Plan α → Option Tx → Prop
  | .done a, hand => Q a hand
  | .poll next, hand => ∀ b, (next b).Guarded Q hand
  | .now next, hand => ∀ t, (next t).Guarded Q hand
  | .start next, hand =>
    (∀ e, (next (.error e)).Guarded Q hand) ∧ ∀ t, (next (.ok t)).Guarded Q (some t)
  | .attempt t _ work next, hand =>
    hand = some t ∧ work.Guarded key I none ∧ ∀ r, (next r).Guarded Q hand
  | .finish t _ next, hand => hand = some t ∧ ∀ r, (next r).Guarded Q none
  | .pause _ next, hand => next.Guarded Q hand
  | .query q next, hand => q ≠ .remove key ∧ ∀ r, (next r).Guarded Q hand

abbrev Plan.Safe (p : Plan α) (hand : Option Tx) : Prop := p.Guarded key I (fun _ _ => True) hand

/-- A task that is guarded from here on. Only work under way may know what is under the key. -/
def Task.Guarded (known : Option KeyState) (hand : Option Tx) : Task α → Prop
  | .planned p | .asleep _ p | .aside p => known = none ∧ p.Safe key I hand
  | .working t _ _ work next =>
    hand = some t ∧ work.Guarded key I known ∧ ∀ r, (next r).Safe key I hand
  | .reaching t _ _ c rest next | .queued t _ _ c rest next =>
    hand = some t ∧ (Work.touch c rest).Guarded key I known ∧ ∀ r, (next r).Safe key I hand
  | .stalled t _ _ next => known = none ∧ hand = some t ∧ ∀ r, (next r).Safe key I hand
  | .lost => known = none

def Task.QueuesOpen (w : World) : Task α → Prop
  | .queued t .. => w.ledger.IsOpen t
  | _ => True

/-- A task that is guarded and knows only what is so, where `σ` is what is under the key. -/
structure Task.Sound (w : World) (σ : KeyState) (hand : Option Tx) (known : Option KeyState)
    (task : Task α) : Prop where
  guarded : task.Guarded key I known hand
  shows : w.Shows key σ
  known : ∀ σ', known = some σ' → σ = σ' ∧ ∃ t, hand = some t ∧ w.Owns t key
  queue : task.QueuesOpen w

/-- What has to come of a step: the others keep what they know, and the caller's task is sound. If
nobody else holds the key, the state under it is possible again. -/
def Task.Arrives (w w' : World) (σ : KeyState) (hand hand' : Option Tx) (task' : Task α) : Prop :=
  w.Kept key hand w' ∧ ∃ known, task'.Sound key I w' (σ.seen w' key) hand' known ∧
    (w.Clear key hand → Possible I known (σ.seen w' key))

end Guarded

/-! ## Work on the key -/

namespace Work.Guarded

variable {key : String} {I : KeyState → Prop} {α : Type} {known : Option KeyState} {c : Touch}

theorem of_touch {next : c.Answer → Work α} (hk : c.key? = some key)
    (left : ∀ σ, Possible I known σ → I σ)
    (h : ∀ σ a, Possible I known σ → c.answer σ.record false = .ok a →
      (next a).Guarded key I (some (σ.after c))) : (Work.touch c next).Guarded key I known := by
  refine ⟨left, ?_⟩
  rw [if_pos hk]
  exact h

theorem of_note {a : Allocation} {next : Work α} {σ : KeyState} (ha : a.key = key)
    (h : next.Guarded key I (some (σ.note a))) : (Work.note a next).Guarded key I (some σ) := by
  rw [Work.Guarded, if_pos ha]
  exact ⟨σ, rfl, h⟩

end Work.Guarded

namespace Task

variable {key : String} {I : KeyState → Prop} {α : Type} {w w' : World} {hand hand' : Option Tx}
  {known : Option KeyState} {task task' : Task α} {t : Tx} {limit : Span} {deadline : Nat}
  {next : Except Error Candidate → Plan α} {c : Touch} {rest : c.Answer → Work Candidate}
  {σ : KeyState}

/-! ## Steps of a plan -/

theorem Arrives.of_none (kept : w.Kept key hand w') (guarded : task'.Guarded key I none hand')
    (queue : task'.QueuesOpen w') (fits : w.Clear key hand → I (σ.seen w' key)) :
    Arrives key I w w' σ hand hand' task' :=
  ⟨kept, none, ⟨guarded, w'.shows_seen σ, nofun, queue⟩, fits⟩

theorem Arrives.of_same (kept : w.Kept key hand w') (shows : w.Shows key σ)
    (same : w'.keyState key = w.keyState key) (guarded : task'.Guarded key I none hand')
    (queue : task'.QueuesOpen w') (fits : w.Clear key hand → I σ) :
    Arrives key I w w' σ hand hand' task' :=
  .of_none kept guarded queue fun clear => (shows.seen_of_same same).symm ▸ fits clear

theorem Arrives.of_still (still : w.Still w') (shows : w.Shows key σ)
    (guarded : task'.Guarded key I none hand') (queue : task'.QueuesOpen w')
    (fits : w.Clear key hand → I σ) : Arrives key I w w' σ hand hand' task' :=
  .of_same still.kept shows still.keyState guarded queue fits

theorem arrives_stepPlan {p : Plan α} (hp : p.Safe key I hand) (shows : w.Shows key σ)
    (fits : w.Clear key hand → I σ) (hs : stepPlan? p w = some (task', w')) :
    Arrives key I w w' σ hand (handed w hand (.planned p)) task' := by
  cases p with
  | done => cases hs
  | poll next => cases hs; exact .of_still ⟨rfl, rfl⟩ shows ⟨rfl, hp _⟩ trivial fits
  | now next => cases hs; exact .of_still ⟨rfl, rfl⟩ shows ⟨rfl, hp _⟩ trivial fits
  | start next =>
    simp only [stepPlan?] at hs
    rcases w.start_cases with ⟨e, w₁, still, h⟩ | ⟨w₁, still, h⟩ | ⟨w₁, still, h⟩ <;>
      rw [h] at hs <;> cases hs <;> simp only [handed, h]
    · exact .of_still still shows ⟨rfl, hp.1 e⟩ trivial fits
    · exact .of_still still shows rfl trivial fits
    · exact .of_same (still.trans_kept .start) shows still.keyState ⟨rfl, hp.2 _⟩ trivial fits
  | attempt t limit work next =>
    cases hs
    obtain ⟨rfl, hw, hn⟩ := hp
    exact .of_still ⟨rfl, rfl⟩ shows ⟨rfl, hw, hn⟩ trivial fits
  | finish t how next =>
    obtain ⟨rfl, hn⟩ := hp
    simp only [stepPlan?] at hs
    rcases w.finish_cases t how with ⟨w₁, still, h⟩ | ⟨r, how', w₁, still, h⟩ <;>
      rw [h] at hs <;> cases hs <;> simp only [handed, h]
    · exact .of_still still shows rfl trivial fits
    · exact .of_same (still.trans_kept .finish) shows
        (World.keyState_finish.trans still.keyState) ⟨rfl, hn r⟩ trivial fits
  | pause span next =>
    simp only [stepPlan?] at hs
    cases hs
    split <;> exact .of_still (w.still_logPause span) shows ⟨rfl, hp⟩ trivial fits
  | query q next =>
    simp only [stepPlan?] at hs
    rcases w.query_cases q with ⟨e, w₁, still, h⟩ | ⟨w₁, still, h⟩ | ⟨w₁, still, h⟩ <;>
      rw [h] at hs <;> cases hs
    · exact .of_still still shows ⟨rfl, hp.2 _⟩ trivial fits
    · exact .of_still still shows rfl trivial fits
    · exact .of_same (still.trans_kept (.query hp.1)) shows
        ((World.keyState_query hp.1).trans still.keyState) ⟨rfl, hp.2 _⟩ trivial fits

/-! ## Steps of work -/

theorem arrives_left (kept : w.Kept key hand w') (shows : w.Shows key σ)
    (same : w'.keyState key = w.keyState key) (hn : ∀ r, (next r).Safe key I hand)
    (left : ∀ σ, Possible I known σ → I σ) (fits : w.Clear key hand → Possible I known σ)
    (r : Except Error Candidate) : Arrives key I w w' σ hand hand (.planned (next r)) :=
  .of_same kept shows same ⟨rfl, hn r⟩ trivial fun clear => left _ (fits clear)

theorem Sound.known_of_same (h : task.Sound key I w σ hand known)
    (same : w'.keyState key = w.keyState key) (owns : ∀ t, w.Owns t key → w'.Owns t key) :
    ∀ σ', known = some σ' → σ.seen w' key = σ' ∧ ∃ t, hand = some t ∧ w'.Owns t key := by
  intro σ' hσ
  obtain ⟨hw, t, ht, own⟩ := h.known σ' hσ
  exact ⟨(h.shows.seen_of_same same).trans hw, t, ht, owns t own⟩

theorem Sound.arrives_same (h : task.Sound key I w σ hand known) (kept : w.Kept key hand w')
    (same : w'.keyState key = w.keyState key) (owns : ∀ t, w.Owns t key → w'.Owns t key)
    (guarded : task'.Guarded key I known hand) (queue : task'.QueuesOpen w')
    (fits : w.Clear key hand → Possible I known σ) : Arrives key I w w' σ hand hand task' :=
  ⟨kept, known, ⟨guarded, w'.shows_seen σ, h.known_of_same same owns, queue⟩,
    fun clear => (h.shows.seen_of_same same).symm ▸ fits clear⟩

theorem Sound.arrives_still (h : task.Sound key I w σ hand known) (still : w.Still w')
    (guarded : task'.Guarded key I known hand) (queue : task'.QueuesOpen w')
    (fits : w.Clear key hand → Possible I known σ) : Arrives key I w w' σ hand hand task' :=
  h.arrives_same still.kept still.keyState (fun _ own => still.owns.mpr own) guarded queue fits

theorem Sound.arrives_said (h : task.Sound key I w σ (some t) known) (still : w.Still w')
    (hw : (Work.touch c rest).Guarded key I known) (hn : ∀ r, (next r).Safe key I (some t))
    (fits : w.Clear key (some t) → Possible I known σ)
    (r : Except LedgerError c.Answer) (hr : ∀ a, r = .ok a → c.key? = none) :
    Arrives key I w w' σ (some t) (some t) (answered t limit deadline c rest next r) := by
  cases r with
  | error e => exact arrives_left still.kept h.shows still.keyState hn hw.1 fits _
  | ok a =>
    have := hw.2
    rw [hr a rfl, if_neg nofun] at this
    exact h.arrives_still still ⟨rfl, this a, hn⟩ trivial fits

theorem Sound.stepWork {work : Work Candidate}
    (h : (working t limit deadline work next).Sound key I w σ hand known)
    (fits : w.Clear key hand → Possible I known σ)
    (hs : stepWork t limit deadline next work w = (task', w')) :
    Arrives key I w w' σ hand hand task' := by
  obtain ⟨rfl, hw, hn⟩ := h.guarded
  cases work with
  | done c => cases hs; exact arrives_left (World.Still.kept ⟨rfl, rfl⟩) h.shows rfl hn hw fits _
  | fail e => cases hs; exact arrives_left (World.Still.kept ⟨rfl, rfl⟩) h.shows rfl hn hw fits _
  | now rest => cases hs; exact h.arrives_still ⟨rfl, rfl⟩ ⟨rfl, hw _, hn⟩ trivial fits
  | draw n rest => cases hs; exact h.arrives_still ⟨rfl, rfl⟩ ⟨rfl, hw _, hn⟩ trivial fits
  | note a rest =>
    cases hs
    by_cases ha : a.key = key
    · rw [Work.Guarded, if_pos ha] at hw
      obtain ⟨σ', rfl, hrest⟩ := hw
      obtain ⟨rfl, own⟩ := h.known σ' rfl
      have now := h.shows.seen_note ha
      exact ⟨.note fun _ => own, some _, ⟨⟨rfl, hrest, hn⟩, World.shows_seen _ σ, fun _ e =>
        ⟨now.trans (Option.some.inj e), own⟩, trivial⟩, fun _ => now⟩
    · rw [Work.Guarded, if_neg ha] at hw
      exact h.arrives_same (.note fun e => absurd e ha) (World.keyState_note_of_ne ha)
        (fun _ own => own) ⟨rfl, hw, hn⟩ trivial fits
  | touch c rest =>
    have still := w.still_submitTouch c
    have none := @World.key?_of_submitTouch w (w.submitTouch c).2 c
    simp only [Task.stepWork] at hs
    generalize hr : w.submitTouch c = reply at hs still none
    obtain ⟨reply, w₁⟩ := reply
    match reply, hs with
    | some (.answer r), hs =>
      cases hs
      exact h.arrives_said still hw hn fits r fun a e => none (by rw [e])
    | some .waits, hs | some .never, hs =>
      cases hs
      refine .of_still still h.shows ⟨rfl, rfl, hn⟩ trivial fun clear => hw.1 _ (fits clear)
    | .none, hs => cases hs; exact h.arrives_still still ⟨rfl, hw, hn⟩ trivial fits

theorem Sound.arrives_reach {r : Except LedgerError c.Answer}
    (h : task.Sound key I w σ (some t) known) (hw : (Work.touch c rest).Guarded key I known)
    (hn : ∀ r, (next r).Safe key I (some t))
    (fits : w.Clear key (some t) → Possible I known σ)
    (hr : w.reach t c = (.answer r, w')) :
    Arrives key I w w' σ (some t) (some t) (answered t limit deadline c rest next r) := by
  rcases w.reach_cases t c with ⟨e, he⟩ | ⟨locks, ht, hl, he⟩ | ⟨-, -, he⟩ <;>
    cases he.symm.trans hr
  · exact h.arrives_said ⟨rfl, rfl⟩ hw hn fits _ nofun
  · by_cases hk : c.key? = some key
    · have now := h.shows.seen_wrote locks hk
      have record : w.ledger.record? c = σ.record := by
        rw [Ledger.record?, hk, ← h.shows.1]; rfl
      have knows : w.ledger.knows c = false := by
        cases c with
        | recorded => cases hk
        | _ => rfl
      -- Who gets the key was alone with it, so what is under it is possible.
      have clear := World.clear_of_lockFor? ht hl hk
      rw [record, knows]
      have := hw.2
      rw [if_pos hk] at this
      cases ha : c.answer σ.record false with
      | error e =>
        refine .of_none (.wrote ht hl) ⟨rfl, hn _⟩ trivial fun clear => ?_
        rw [now, KeyState.after_of_leaves (Touch.of_answer_error ha).1]
        exact hw.1 _ (fits clear)
      | ok a =>
        exact ⟨.wrote ht hl, some _, ⟨⟨rfl, this _ a (fits clear) ha, hn⟩, World.shows_seen _ σ,
          fun _ e => ⟨now.trans (Option.some.inj e), t, rfl, World.owns_wrote ht hl hk⟩, trivial⟩,
          fun _ => now⟩
    · have same := World.keyState_wrote_of_ne w locks hk
      have := hw.2
      rw [if_neg hk] at this
      cases c.answer (w.ledger.record? c) (w.ledger.knows c) with
      | error e => exact arrives_left (.wrote ht hl) h.shows same hn hw.1 fits _
      | ok a =>
        exact h.arrives_same (.wrote ht hl) same
          (fun u own => ⟨own.1, World.holds_lockFor? hl own.2⟩) ⟨rfl, this a, hn⟩ trivial fits

/-! ## Giving up -/

theorem Sound.leaveQueue (h : (queued t limit deadline c rest next).Sound key I w σ hand known)
    (fits : w.Clear key hand → Possible I known σ) {p : Plan α} (hp : p.Safe key I hand) :
    Arrives key I w (leaveQueue w t c) σ hand hand (.planned p) := by
  obtain ⟨rfl, hw, -⟩ := h.guarded
  exact .of_same (.leave h.queue) h.shows World.keyState_leaveQueue ⟨rfl, hp⟩ trivial
    fun clear => hw.1 _ (fits clear)

/-- **An attempt may be given up** wherever it waits. -/
theorem Sound.giveUp (h : task.Sound key I w σ hand known) (waits : task.Waits)
    (fits : w.Clear key hand → Possible I known σ)
    (hs : task.giveUp? w = some (task', w')) : Arrives key I w w' σ hand hand task' := by
  cases task with
  | working t limit deadline work next =>
    cases hs
    obtain ⟨rfl, hw, hn⟩ := h.guarded
    obtain ⟨c, rest, rfl⟩ := waits
    exact arrives_left (World.Still.kept ⟨rfl, rfl⟩) h.shows rfl hn hw.1 fits _
  | reaching t limit deadline c rest next =>
    cases hs
    obtain ⟨rfl, hw, hn⟩ := h.guarded
    exact arrives_left (World.Still.kept ⟨rfl, rfl⟩) h.shows rfl hn hw.1 fits _
  | queued t limit deadline c rest next => cases hs; exact h.leaveQueue fits (h.guarded.2.2 _)
  | stalled t limit deadline next =>
    cases hs
    obtain ⟨rfl, rfl, hn⟩ := h.guarded
    exact .of_still ⟨rfl, rfl⟩ h.shows ⟨rfl, hn _⟩ trivial fits
  | _ => cases hs

/-- **A job may be dropped** wherever its caller waits. -/
theorem Sound.drop (h : task.Sound key I w σ hand known) (waits : task.Waits)
    (fits : w.Clear key hand → Possible I known σ) {p : Plan α} (hp : p.Safe key I hand) :
    Arrives key I w (task.leave w) σ hand hand (.planned p) := by
  cases task with
  | working t limit deadline work next =>
    obtain ⟨rfl, hw, -⟩ := h.guarded
    obtain ⟨c, rest, rfl⟩ := waits
    exact .of_still ⟨rfl, rfl⟩ h.shows ⟨rfl, hp⟩ trivial fun clear => hw.1 _ (fits clear)
  | reaching t limit deadline c rest next =>
    obtain ⟨rfl, hw, -⟩ := h.guarded
    exact .of_still ⟨rfl, rfl⟩ h.shows ⟨rfl, hp⟩ trivial fun clear => hw.1 _ (fits clear)
  | queued t limit deadline c rest next => exact h.leaveQueue fits hp
  | stalled t limit deadline next =>
    obtain ⟨rfl, -⟩ := h.guarded
    exact .of_still ⟨rfl, rfl⟩ h.shows ⟨rfl, hp⟩ trivial fits
  | planned p' | asleep wake p' | aside p' =>
    obtain ⟨rfl, -⟩ := h.guarded
    exact .of_still ⟨rfl, rfl⟩ h.shows ⟨rfl, hp⟩ trivial fits
  | lost =>
    obtain rfl := h.guarded
    exact .of_still ⟨rfl, rfl⟩ h.shows ⟨rfl, hp⟩ trivial fits

/-! ## Steps of a task -/

/-- **A step of a sound task** keeps it sound, and keeps what all others know. -/
theorem Sound.step (h : task.Sound key I w σ hand known)
    (fits : w.Clear key hand → Possible I known σ) (hs : task.step? w = some (task', w')) :
    Arrives key I w w' σ hand (task.handed w hand) task' := by
  cases task with
  | planned p =>
    obtain ⟨rfl, hp⟩ := h.guarded
    exact arrives_stepPlan hp h.shows fits hs
  | asleep wake p =>
    obtain ⟨rfl, hp⟩ := h.guarded
    simp only [step?] at hs
    split at hs <;> cases hs
    exact .of_still ⟨rfl, rfl⟩ h.shows ⟨rfl, hp⟩ trivial fits
  | aside p =>
    obtain ⟨rfl, hp⟩ := h.guarded
    cases hs
    exact .of_still ⟨rfl, rfl⟩ h.shows ⟨rfl, hp⟩ trivial fits
  | working t limit deadline work next => exact h.stepWork fits (Option.some.inj hs)
  | reaching t limit deadline c rest next =>
    obtain ⟨rfl, hw, hn⟩ := h.guarded
    simp only [step?] at hs
    rcases w.reach_cases t c with ⟨e, he⟩ | ⟨locks, ht, hl, he⟩ | ⟨ht, -, he⟩ <;>
      rw [he] at hs <;> cases hs
    · exact h.arrives_reach hw hn fits he
    · exact h.arrives_reach hw hn fits he
    · exact h.arrives_same .join World.keyState_joinQueue (fun _ own => own.joinQueue) ⟨rfl, hw, hn⟩
        (World.isOpen_joinQueue ht) fits
  | queued t limit deadline c rest next =>
    obtain ⟨rfl, hw, hn⟩ := h.guarded
    simp only [step?] at hs
    split at hs
    · rcases w.reach_cases t c with ⟨e, he⟩ | ⟨locks, ht, hl, he⟩ | ⟨-, -, he⟩ <;>
        rw [he] at hs <;> cases hs
      · exact h.arrives_reach hw hn fits he
      · exact h.arrives_reach hw hn fits he
    · split at hs
      · exact h.giveUp trivial fits hs
      · cases hs
  | stalled t limit deadline next =>
    simp only [step?] at hs
    split at hs
    · exact h.giveUp trivial fits hs
    · cases hs
  | lost => cases hs

end Task

end Docket
