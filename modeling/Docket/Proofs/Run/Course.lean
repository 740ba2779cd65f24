import Docket.Issue.Generate
import Docket.Run.Alone
import Mathlib.Tactic.SplitIfs

/-!
# The course of a run

A run comes through many worlds before it ends. What holds of all of them, and of what the run comes
to, is put together from what its parts ensure, in any world: calls may fail and stall, and keys may
be in other hands.

* `Work.Ensures`, **`Plan.Ensures`**: a condition holds all the way and another one at the end, and
  a run that never ends has an excuse; `Ensures.course` and `Ensures.ends` say so;
* `Perseveres`, **`Perseveres.retrying`**: what repeated attempts keep, and where that leads.
-/

namespace Docket

variable {α β : Type}

theorem World.mem_of_submit (w : World) {m : Method} {c : Call} {fault : Fault}
    (h : (w.submit m c).1 = fault) (ne : fault ≠ .pass) : fault ∈ w.faults m := by
  simp only [submit] at h
  cases e : w.faults m with
  | nil => rw [e] at h; exact absurd h.symm ne
  | cons f rest => rw [e] at h; exact h ▸ List.mem_cons_self

theorem World.submit_script (w : World) (m m' : Method) (c : Call) :
    (w.submit m c).2.faults m' <:+ w.faults m' := by
  simp only [World.submit]
  split
  · next e => rw [e]; exact List.tail_suffix _
  · exact List.suffix_rfl

/-! ## Time -/

theorem World.elapsed_touch (w : World) (t : Tx) (c : Touch) :
    (w.touch t c).2.elapsed = w.elapsed := by
  have asked : (w.submitTouch c).2.elapsed = w.elapsed := rfl
  unfold touch
  generalize w.submitTouch c = reply at asked
  obtain ⟨_ | r, v⟩ := reply
  · dsimp only [reach]
    split <;> exact asked
  · exact asked

theorem World.elapsed_start (w : World) : w.start.2.elapsed = w.elapsed := by
  unfold start
  dsimp only
  split <;> rfl

theorem World.elapsed_finish (w : World) (t : Tx) (how : Ending) :
    (w.finish t how).2.elapsed = w.elapsed := by
  unfold finish
  dsimp only
  split <;> rfl

theorem World.elapsed_query (w : World) (q : Query) : (w.query q).2.elapsed = w.elapsed := by
  unfold query
  dsimp only
  split <;> rfl

theorem Work.run_elapsed (work : Work α) (t : Tx) (w : World) :
    (work.run t w).2.elapsed = w.elapsed := by
  induction work generalizing w with
  | done | fail => rfl
  | now next ih => exact ih _ w
  | draw n next ih => exact ih _ _
  | note a next ih => exact ih _
  | touch c next ih =>
    have first := w.elapsed_touch t c
    rw [run]
    generalize w.touch t c = dealt at first
    obtain ⟨reply, v⟩ := dealt
    cases reply with
    | answer r =>
      cases r with
      | ok a => exact (ih a v).trans first
      | error e => exact first
    | waits | never => exact first

/-! ## Work in a transaction -/

namespace Work

/-- The worlds that work in a transaction comes through. -/
def course (t : Tx) : Work α → World → List World
  | .done _, w | .fail _, w => [w]
  | .now next, w => (next w.now).course t w
  | .draw n next, w => w :: (next (w.takeWords n).1).course t (w.takeWords n).2
  | .note a next, w => w :: next.course t (w.note a)
  | .touch c next, w =>
    w :: match w.touch t c with
      | (.answer (.ok a), v) => (next a).course t v
      | (_, v) => [v]

theorem mem_course (t : Tx) (work : Work α) (w : World) : w ∈ work.course t w := by
  induction work with
  | done | fail => exact List.mem_singleton_self w
  | now next ih => exact ih w.now
  | draw | note | touch =>
    rw [course]
    exact List.mem_cons_self

theorem run_mem_course (t : Tx) (work : Work α) (w : World) :
    (work.run t w).2 ∈ work.course t w := by
  induction work generalizing w with
  | done | fail => exact List.mem_singleton_self _
  | now next ih => exact ih w.now w
  | draw n next ih => exact List.mem_cons_of_mem _ (ih _ _)
  | note a next ih => exact List.mem_cons_of_mem _ (ih _)
  | touch c next ih =>
    simp only [run, course]
    refine List.mem_cons_of_mem _ ?_
    generalize w.touch t c = reply
    match reply with
    | (.answer (.ok a), v) => exact ih a v
    | (.answer (.error _), v) | (.waits, v) | (.never, v) => exact List.mem_singleton_self _

/-- Work in a transaction keeps `S` all the way, and `Q` holds of what it comes to. -/
def Ensures (t : Tx) (S : World → Prop) (Q : Halt α → World → Prop) : Work α → World → Prop
  | .done a, w => S w ∧ Q (.finished (.ok a)) w
  | .fail e, w => S w ∧ Q (.finished (.error e)) w
  | .now next, w => (next w.now).Ensures t S Q w
  | .draw n next, w => S w ∧ (next (w.takeWords n).1).Ensures t S Q (w.takeWords n).2
  | .note a next, w => S w ∧ next.Ensures t S Q (w.note a)
  | .touch c next, w =>
    S w ∧ match w.touch t c with
      | (.answer (.ok a), v) => (next a).Ensures t S Q v
      | (.answer (.error e), v) => S v ∧ Q (.finished (.error (.ledger e))) v
      | (.waits, v) | (.never, v) => S v ∧ Q .stuck v

variable {t : Tx} {S : World → Prop} {P : Halt α → World → Prop} {Q : Halt β → World → Prop}
  {work : Work α} {f : α → Work β} {w : World}

theorem Ensures.course (h : work.Ensures t S P w) : ∀ v ∈ work.course t w, S v := by
  induction work generalizing w with
  | done | fail => exact List.forall_mem_singleton.mpr h.1
  | now next ih => exact ih _ h
  | draw n next ih => exact List.forall_mem_cons.mpr ⟨h.1, ih _ h.2⟩
  | note a next ih => exact List.forall_mem_cons.mpr ⟨h.1, ih h.2⟩
  | touch c next ih =>
    simp only [Ensures] at h
    simp only [Work.course, List.forall_mem_cons]
    refine ⟨h.1, ?_⟩
    have rest := h.2
    generalize w.touch t c = reply at rest ⊢
    match reply with
    | (.answer (.ok a), v) => exact ih a rest
    | (.answer (.error _), v) | (.waits, v) | (.never, v) =>
      exact List.forall_mem_singleton.mpr rest.1

theorem Ensures.ends (h : work.Ensures t S P w) : P (work.run t w).1 (work.run t w).2 := by
  induction work generalizing w with
  | done | fail => exact h.2
  | now next ih => exact ih _ h
  | draw n next ih => exact ih _ h.2
  | note a next ih => exact ih h.2
  | touch c next ih =>
    simp only [Ensures] at h
    have rest := h.2
    simp only [Work.run]
    generalize w.touch t c = reply at rest ⊢
    match reply with
    | (.answer (.ok a), v) => exact ih a rest
    | (.answer (.error _), v) | (.waits, v) | (.never, v) => exact rest.2

theorem Ensures.bind (h : work.Ensures t S P w)
    (ok : ∀ a v, S v → P (.finished (.ok a)) v → (f a).Ensures t S Q v)
    (error : ∀ e v, S v → P (.finished (.error e)) v → Q (.finished (.error e)) v)
    (stuck : ∀ v, S v → P .stuck v → Q .stuck v) : (work.bind f).Ensures t S Q w := by
  induction work generalizing w with
  | done a => exact ok a w h.1 h.2
  | fail e => exact ⟨h.1, error e w h.1 h.2⟩
  | now next ih => exact ih _ h
  | draw n next ih => exact ⟨h.1, ih _ h.2⟩
  | note a next ih => exact ⟨h.1, ih h.2⟩
  | touch c next ih =>
    simp only [Work.bind, Ensures] at h ⊢
    refine ⟨h.1, ?_⟩
    have rest := h.2
    generalize w.touch t c = dealt at rest ⊢
    obtain ⟨reply, v⟩ := dealt
    cases reply with
    | answer r =>
      cases r with
      | ok a => exact ih a rest
      | error e => exact ⟨rest.1, error _ v rest.1 rest.2⟩
    | waits | never => exact ⟨rest.1, stuck v rest.1 rest.2⟩

theorem Ensures.mono {S' : World → Prop} {P' : Halt α → World → Prop} (h : work.Ensures t S P w)
    (le : ∀ v, S v → S' v) (le' : ∀ r v, S v → P r v → P' r v) : work.Ensures t S' P' w := by
  induction work generalizing w with
  | done | fail => exact ⟨le _ h.1, le' _ _ h.1 h.2⟩
  | now next ih => exact ih _ h
  | draw n next ih => exact ⟨le _ h.1, ih _ h.2⟩
  | note a next ih => exact ⟨le _ h.1, ih h.2⟩
  | touch c next ih =>
    simp only [Ensures] at h ⊢
    refine ⟨le _ h.1, ?_⟩
    have rest := h.2
    generalize w.touch t c = reply at rest ⊢
    match reply with
    | (.answer (.ok a), v) => exact ih a rest
    | (.answer (.error _), v) | (.waits, v) | (.never, v) =>
      exact ⟨le _ rest.1, le' _ _ rest.1 rest.2⟩

end Work

/-! ## Plans -/

namespace Plan

def course : Plan α → World → List World
  | .done _, w => [w]
  | .poll next, w => (next w.isCancelled).course w
  | .now next, w => (next w.now).course w
  | .start next, w =>
    w :: match w.start with
      | (.answer r, v) => (next r).course v
      | (_, v) => [v]
  | .attempt t limit work next, w =>
    work.course t w ++ match work.run t w with
      | (.finished r, v) => (next r).course v
      | (.stuck, v) =>
        if v.beyond (v.elapsed + limit.nanos) then []
        else (next (.error (.ledger (.timeout limit)))).course
          { v with elapsed := v.elapsed + limit.nanos }
  | .finish t how next, w =>
    w :: match w.finish t how with
      | (.answer r, v) => (next r).course v
      | (_, v) => [v]
  | .pause span next, w =>
    w :: if w.restless then next.course (w.logPause span)
      else if w.beyond (w.elapsed + span.nanos) then [w.logPause span]
      else next.course { w.logPause span with elapsed := w.elapsed + span.nanos }
  | .query q next, w =>
    w :: match w.query q with
      | (.answer r, v) => (next r).course v
      | (_, v) => [v]

theorem mem_course (p : Plan α) (w : World) : w ∈ p.course w := by
  induction p with
  | done => exact List.mem_singleton_self w
  | poll next ih => exact ih w.isCancelled
  | now next ih => exact ih w.now
  | attempt t limit work =>
    rw [course]
    exact List.mem_append_left _ (work.mem_course t w)
  | start | finish | pause | query =>
    rw [course]
    exact List.mem_cons_self

theorem run_mem_course (p : Plan α) (w : World) : (p.run w).2 ∈ p.course w := by
  induction p generalizing w with
  | done => exact List.mem_singleton_self _
  | poll next ih => exact ih _ w
  | now next ih => exact ih _ w
  | start next ih =>
    simp only [run, course]
    refine List.mem_cons_of_mem _ ?_
    generalize w.start = reply
    match reply with
    | (.answer r, v) => exact ih r v
    | (.waits, v) | (.never, v) => exact List.mem_singleton_self _
  | finish t how next ih =>
    simp only [run, course]
    refine List.mem_cons_of_mem _ ?_
    generalize w.finish t how = reply
    match reply with
    | (.answer r, v) => exact ih r v
    | (.waits, v) | (.never, v) => exact List.mem_singleton_self _
  | query q next ih =>
    simp only [run, course]
    refine List.mem_cons_of_mem _ ?_
    generalize w.query q = reply
    match reply with
    | (.answer r, v) => exact ih r v
    | (.waits, v) | (.never, v) => exact List.mem_singleton_self _
  | attempt t limit work next ih =>
    have last := work.run_mem_course t w
    simp only [run, course]
    generalize work.run t w = result at last ⊢
    match result with
    | (.finished r, v) => exact List.mem_append_right _ (ih r v)
    | (.stuck, v) =>
      dsimp only
      split_ifs
      · exact List.mem_append_left _ last
      · exact List.mem_append_right _ (ih _ _)
  | pause span next ih =>
    simp only [run, course]
    refine List.mem_cons_of_mem _ ?_
    split_ifs
    · exact ih _
    · exact List.mem_singleton_self _
    · exact ih _

/-- A plan keeps `S` all the way, and `Q` holds of what it comes to; if it never ends, it has the
excuse `X`. -/
def Ensures (S : World → Prop) (X : Prop) (Q : α → World → Prop) : Plan α → World → Prop
  | .done a, w => S w ∧ Q a w
  | .poll next, w => (next w.isCancelled).Ensures S X Q w
  | .now next, w => (next w.now).Ensures S X Q w
  | .start next, w =>
    S w ∧ match w.start with
      | (.answer r, v) => (next r).Ensures S X Q v
      | (_, v) => S v ∧ X
  | .attempt t limit work next, w =>
    work.Ensures t S (fun
      | .finished r, v => (next r).Ensures S X Q v
      | .stuck, v =>
        if v.beyond (v.elapsed + limit.nanos) then X
        else (next (.error (.ledger (.timeout limit)))).Ensures S X Q
          { v with elapsed := v.elapsed + limit.nanos }) w
  | .finish t how next, w =>
    S w ∧ match w.finish t how with
      | (.answer r, v) => (next r).Ensures S X Q v
      | (_, v) => S v ∧ X
  | .pause span next, w =>
    S w ∧ if w.restless then next.Ensures S X Q (w.logPause span)
      else if w.beyond (w.elapsed + span.nanos) then S (w.logPause span) ∧ X
      else next.Ensures S X Q { w.logPause span with elapsed := w.elapsed + span.nanos }
  | .query q next, w =>
    S w ∧ match w.query q with
      | (.answer r, v) => (next r).Ensures S X Q v
      | (_, v) => S v ∧ X

variable {S : World → Prop} {X : Prop} {P : α → World → Prop} {Q : β → World → Prop}
  {p : Plan α} {f : α → Plan β} {w : World}

theorem Ensures.course (h : p.Ensures S X P w) : ∀ v ∈ p.course w, S v := by
  induction p generalizing w with
  | done a => exact List.forall_mem_singleton.mpr h.1
  | poll next ih => exact ih _ h
  | now next ih => exact ih _ h
  | start next ih | finish _ _ next ih | query _ next ih =>
    simp only [Ensures] at h
    simp only [Plan.course, List.forall_mem_cons]
    refine ⟨h.1, ?_⟩
    have rest := h.2
    split at rest
    · exact ih _ rest
    · exact List.forall_mem_singleton.mpr rest.1
  | attempt t limit work next ih =>
    simp only [Ensures] at h
    simp only [Plan.course, List.forall_mem_append]
    refine ⟨h.course, ?_⟩
    have rest := h.ends
    generalize work.run t w = result at rest ⊢
    match result with
    | (.finished r, v) => exact ih r rest
    | (.stuck, v) =>
      dsimp only at rest ⊢
      split_ifs at rest ⊢
      · nofun
      · exact ih _ rest
  | pause span next ih =>
    simp only [Ensures] at h
    simp only [Plan.course, List.forall_mem_cons]
    refine ⟨h.1, ?_⟩
    have rest := h.2
    split_ifs at rest ⊢
    · exact ih rest
    · exact List.forall_mem_singleton.mpr rest.1
    · exact ih rest

theorem Ensures.last (h : p.Ensures S X P w) : S (p.run w).2 := h.course _ (p.run_mem_course w)

/-- What a run that ends comes to; one that never ends has its excuse. -/
theorem Ensures.ends (h : p.Ensures S X P w) :
    match p.run w with
    | (.finished a, v) => P a v
    | (.hung, _) => X := by
  induction p generalizing w with
  | done a => exact h.2
  | poll next ih => exact ih _ h
  | now next ih => exact ih _ h
  | start next ih =>
    simp only [Ensures] at h
    have rest := h.2
    simp only [Plan.run]
    generalize w.start = reply at rest ⊢
    match reply with
    | (.answer r, v) => exact ih r rest
    | (.waits, v) | (.never, v) => exact rest.2
  | finish t how next ih =>
    simp only [Ensures] at h
    have rest := h.2
    simp only [Plan.run]
    generalize w.finish t how = reply at rest ⊢
    match reply with
    | (.answer r, v) => exact ih r rest
    | (.waits, v) | (.never, v) => exact rest.2
  | query q next ih =>
    simp only [Ensures] at h
    have rest := h.2
    simp only [Plan.run]
    generalize w.query q = reply at rest ⊢
    match reply with
    | (.answer r, v) => exact ih r rest
    | (.waits, v) | (.never, v) => exact rest.2
  | attempt t limit work next ih =>
    simp only [Ensures] at h
    have rest := h.ends
    simp only [Plan.run]
    generalize work.run t w = result at rest ⊢
    match result with
    | (.finished r, v) => exact ih r rest
    | (.stuck, v) =>
      dsimp only at rest ⊢
      split_ifs at rest ⊢
      · exact rest
      · exact ih _ rest
  | pause span next ih =>
    simp only [Ensures] at h
    have rest := h.2
    simp only [Plan.run]
    split_ifs at rest ⊢
    · exact ih rest
    · exact rest.2
    · exact ih rest

theorem Ensures.finished (h : p.Ensures S X P w) {a : α} (run : (p.run w).1 = .finished a) :
    P a (p.run w).2 := by
  have ends := h.ends
  generalize p.run w = result at run ends ⊢
  obtain ⟨_, v⟩ := result
  cases run
  exact ends

theorem Ensures.returns (h : p.Ensures S X P w) (no : ¬ X) : ∃ a, (p.run w).1 = .finished a := by
  have ends := h.ends
  generalize p.run w = result at ends ⊢
  match result with
  | (.finished a, v) => exact ⟨a, rfl⟩
  | (.hung, v) => exact absurd ends no

theorem Ensures.bind (h : p.Ensures S X P w)
    (rest : ∀ a v, S v → P a v → (f a).Ensures S X Q v) : (p.bind f).Ensures S X Q w := by
  induction p generalizing w with
  | done a => exact rest a w h.1 h.2
  | poll next ih => exact ih _ h
  | now next ih => exact ih _ h
  | start next ih | finish _ _ next ih | query _ next ih =>
    simp only [Plan.bind, Ensures] at h ⊢
    refine ⟨h.1, ?_⟩
    have after := h.2
    split at after
    · exact ih _ after
    · exact after
  | attempt t limit work next ih =>
    simp only [Plan.bind, Ensures] at h ⊢
    refine h.mono (fun _ => id) ?_
    rintro (r | _) v - after
    · exact ih r after
    · dsimp only at after ⊢
      split_ifs at after ⊢
      · exact after
      · exact ih _ after
  | pause span next ih =>
    simp only [Plan.bind, Ensures] at h ⊢
    refine ⟨h.1, ?_⟩
    have after := h.2
    split_ifs at after ⊢
    · exact ih after
    · exact after
    · exact ih after

theorem bind_done (p : Plan α) : p.bind .done = p := by
  induction p with
  | done => rfl
  | pause span next ih => simp only [bind, ih]
  | poll next ih | now next ih | start next ih | attempt _ _ _ next ih | finish _ _ next ih
  | query _ next ih => simp only [bind, ih]

theorem Ensures.mono {P' : α → World → Prop} (h : p.Ensures S X P w)
    (le : ∀ a v, P a v → P' a v) : p.Ensures S X P' w := by
  rw [← p.bind_done]
  exact h.bind fun a v kept ha => ⟨kept, le a v ha⟩

theorem Ensures.start {next : Except LedgerError Tx → Plan α} (kept : S w)
    (opens : (next (.ok w.ledger.start.1)).Ensures S X P
      { (w.submit .start .start).2 with ledger := w.ledger.start.2 })
    (fails : ∀ e, .fail e ∈ w.faults .start →
      (next (.error e)).Ensures S X P (w.submit .start .start).2)
    (stalls : .stall ∈ w.faults .start → S (w.submit .start .start).2 ∧ X) :
    (Plan.start next).Ensures S X P w := by
  simp only [Ensures, World.start]
  refine ⟨kept, ?_⟩
  match e : (w.submit .start .start).1 with
  | .fail e' => exact fails _ (w.mem_of_submit e nofun)
  | .stall => exact stalls (w.mem_of_submit e nofun)
  | .pass | .say _ => exact opens

theorem Ensures.finish {t : Tx} {how : Ending} {next : Except LedgerError Unit → Plan α}
    (kept : S w)
    (ends : (next (.ok ())).Ensures S X P
      { (w.submit how.method (.finish how)).2 with ledger := w.ledger.finish t how })
    (fails : ∀ e, .fail e ∈ w.faults how.method → (next (.error e)).Ensures S X P
      { (w.submit how.method (.finish how)).2 with ledger := w.ledger.finish t .abort })
    (stalls : .stall ∈ w.faults how.method → S (w.submit how.method (.finish how)).2 ∧ X) :
    (Plan.finish t how next).Ensures S X P w := by
  simp only [Ensures, World.finish]
  refine ⟨kept, ?_⟩
  match e : (w.submit how.method (.finish how)).1 with
  | .fail e' => exact fails _ (w.mem_of_submit e nofun)
  | .stall => exact stalls (w.mem_of_submit e nofun)
  | .pass | .say _ => exact ends

theorem Ensures.query {q : Query} {next : Except LedgerError q.Answer → Plan α} (kept : S w)
    (answers : (next (.ok (w.ledger.query q).1)).Ensures S X P
      { (w.submit q.method (.query q)).2 with ledger := (w.ledger.query q).2 })
    (fails : ∀ e, .fail e ∈ w.faults q.method →
      (next (.error e)).Ensures S X P (w.submit q.method (.query q)).2)
    (stalls : .stall ∈ w.faults q.method → S (w.submit q.method (.query q)).2 ∧ X) :
    (Plan.query q next).Ensures S X P w := by
  simp only [Ensures, World.query]
  refine ⟨kept, ?_⟩
  match e : (w.submit q.method (.query q)).1 with
  | .fail e' => exact fails _ (w.mem_of_submit e nofun)
  | .stall => exact stalls (w.mem_of_submit e nofun)
  | .pass | .say _ => exact answers

end Plan

/-! ## Attempts, repeated -/

/-- What attempts keep while they are repeated: `I` holds of the world before each of them, of how
many are left, and of what made the last one fail; and what the whole comes to is `Q`. -/
structure Perseveres (r : RetrySettings) (attempt : Plan Attempt) (S : World → Prop) (X : Prop)
    (I : Nat → Option LedgerError → World → Prop) (Q : Except Error String → World → Prop) :
    Prop where
  kept : ∀ {left last w}, I left last w → S w
  cancelled : ∀ {left last w}, I left last w → Q (.error .cancelled) w
  exhausted : ∀ {last w}, I 0 last w → Q (.error (.exhausted r.maxAttempts last)) w
  once : ∀ {left last w}, I (left + 1) last w → attempt.Ensures S X (fun
    | .issued id, v => Q (.ok id) v
    | .fatal e, v => Q (.error e) v
    | .collided, v => I left last v
    | .transient e, v => I left (some e) v) w
  /-- A pause may take any time, also none. -/
  paused : ∀ {left last w} (span : Span) (time : Nat), I left last w →
    I left last { w.logPause span with elapsed := time }
  late : ∀ {left last w time}, I left last w → w.beyond time → X

/-- **Attempts that are repeated** lead from what holds before them to what they come to. -/
theorem Perseveres.retrying {r : RetrySettings} {attempt : Plan Attempt} {S : World → Prop}
    {X : Prop} {I : Nat → Option LedgerError → World → Prop}
    {Q : Except Error String → World → Prop} (h : Perseveres r attempt S X I Q) {left : Nat}
    {last : Option LedgerError} {w : World} (start : I left last w) :
    (Docket.retrying r attempt left last).Ensures S X Q w := by
  induction left generalizing last w with
  | zero => exact ⟨h.kept start, h.exhausted start⟩
  | succ left ih =>
    simp only [Docket.retrying, Plan.Ensures]
    split
    · exact ⟨h.kept start, h.cancelled start⟩
    · refine (h.once start).bind ?_
      rintro (id | _ | e | e) v kept after
      · exact ⟨kept, after⟩
      · exact ih after
      · dsimp only
        split
        · exact ih after
        · simp only [Plan.Ensures]
          refine ⟨kept, ?_⟩
          split_ifs with quick late
          · exact ih (h.paused _ v.elapsed after)
          · exact ⟨h.kept (h.paused _ v.elapsed after), h.late after late⟩
          · exact ih (h.paused _ _ after)
      · exact ⟨kept, after⟩

end Docket
