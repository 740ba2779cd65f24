import Docket.Proofs.Run.Dealings

/-!
# Calls that never come back

A script says of each call in advance whether it comes back. One that does not is survived inside an
attempt, whose time runs out, and nowhere else.

* **`Plan.run_follows`**: a run never ends exactly if it loses a call outside attempts.
-/

namespace Docket

variable {α β : Type} {w v u : World} {t : Tx} {calls calls' : List Call} {K P : Call → Prop}
  {script : Method → List Fault}

/-! ## Calls and the script -/

/-- What a call is filed under in the script. -/
def Call.method? : Call → Option Method
  | .start => some .start
  | .finish how => some how.method
  | .touch c => some c.method
  | .query q => some q.method
  | .pause _ => none

def Call.Outside : Call → Prop
  | .touch _ => False
  | _ => True

def Method.count (m : Method) (calls : List Call) : Nat := calls.countP (·.method? = some m)

theorem Method.count_cons (m : Method) (c : Call) (calls : List Call) :
    m.count (c :: calls) = m.count calls + if c.method? = some m then 1 else 0 := by
  simp only [count, List.countP_cons, decide_eq_true_eq]

theorem Method.count_append (m : Method) (calls calls' : List Call) :
    m.count (calls ++ calls') = m.count calls + m.count calls' := List.countP_append

/-- Whether a script stalls a call that is made after some others. -/
def Stalled (script : Method → List Fault) (c : Call) (before : List Call) : Prop :=
  ∃ m, c.method? = some m ∧ (script m)[m.count before]? = some .stall

/-- Whether one of these calls, latest first, is of a sort and never comes back. -/
def Lost (script : Method → List Fault) (K : Call → Prop) : List Call → Prop
  | [] => False
  | c :: before => K c ∧ Stalled script c before ∨ Lost script K before

theorem lost_congr {K' : Call → Prop} (same : ∀ c ∈ calls, c.method?.isSome → (K c ↔ K' c)) :
    Lost script K calls ↔ Lost script K' calls := by
  induction calls with
  | nil => rfl
  | cons c calls ih =>
    obtain ⟨first, rest⟩ := List.forall_mem_cons.mp same
    simp only [Lost, ih rest]
    refine or_congr_left (and_congr_left ?_)
    rintro ⟨m, filed, -⟩
    exact first (by rw [filed]; rfl)

theorem not_lost (h : ∀ c ∈ calls, ¬ K c) : ¬ Lost script K calls := by
  induction calls with
  | nil => exact id
  | cons c calls ih =>
    obtain ⟨first, rest⟩ := List.forall_mem_cons.mp h
    exact not_or.mpr ⟨fun both => first both.1, ih rest⟩

namespace World

/-- The second world comes after the first, with these calls, latest first. The script has moved on
with them. -/
structure Follows (w v : World) (calls : List Call) : Prop where
  log : v.log = calls ++ w.log
  script : ∀ m, v.faults m = (w.faults m).drop (m.count calls)
  stopAfter : v.stopAfter = w.stopAfter
  horizon : v.horizon = w.horizon

theorem Follows.refl (w : World) : w.Follows w [] := ⟨rfl, fun _ => rfl, rfl, rfl⟩

theorem Follows.trans (h : w.Follows v calls) (h' : v.Follows u calls') :
    w.Follows u (calls' ++ calls) where
  log := by rw [h'.log, h.log, List.append_assoc]
  script m := by rw [h'.script, h.script, List.drop_drop, Method.count_append, Nat.add_comm]
  stopAfter := h'.stopAfter.trans h.stopAfter
  horizon := h'.horizon.trans h.horizon

theorem Follows.stalled_iff (h : w.Follows v calls) (c : Call) (before : List Call) :
    Stalled v.faults c before ↔ Stalled w.faults c (before ++ calls) := by
  simp only [Stalled, h.script, List.getElem?_drop, Method.count_append, Nat.add_comm]

theorem Follows.lost_append (h : w.Follows v calls) (calls' : List Call) :
    Lost w.faults K (calls' ++ calls) ↔ Lost w.faults K calls ∨ Lost v.faults K calls' := by
  induction calls' with
  | nil => exact (or_iff_left id).symm
  | cons c calls' ih =>
    simp only [List.cons_append, Lost, ih, h.stalled_iff]
    exact or_left_comm

/-! ## Single calls -/

theorem follows_submit {m : Method} {c : Call} (filed : c.method? = some m) :
    w.Follows (w.submit m c).2 [c] where
  log := rfl
  script m' := by
    simp only [submit, Method.count_cons, filed, Option.some.injEq]
    by_cases same : m' = m
    · subst same
      rw [if_pos rfl, if_pos rfl]
      exact List.drop_one.symm
    · rw [if_neg same, if_neg (Ne.symm same)]
      rfl
  stopAfter := rfl
  horizon := rfl

theorem lost_singleton {m : Method} {c : Call} (filed : c.method? = some m) :
    Lost w.faults K [c] ↔ K c ∧ (w.submit m c).1 = .stall := by
  have head : (w.faults m).headD .pass = .stall ↔ (w.faults m)[0]? = some .stall := by
    cases w.faults m <;> simp
  simp only [Lost, Stalled, filed, Option.some.injEq, exists_eq_left', or_false, submit, head]
  rfl

theorem Follows.withLedger (h : w.Follows v calls) (l : Ledger) :
    w.Follows { v with ledger := l } calls :=
  ⟨h.log, h.script, h.stopAfter, h.horizon⟩

theorem follows_start (w : World) : w.Follows w.start.2 [.start] := by
  have asked : w.Follows (w.submit .start .start).2 [.start] := follows_submit rfl
  unfold start
  dsimp only
  split
  · exact asked
  · exact asked
  · exact asked.withLedger _

theorem follows_finish (w : World) (t : Tx) (how : Ending) :
    w.Follows (w.finish t how).2 [.finish how] := by
  have asked : w.Follows (w.submit how.method (.finish how)).2 [.finish how] := follows_submit rfl
  unfold finish
  dsimp only
  split
  · exact asked.withLedger _
  · exact asked
  · exact asked.withLedger _

theorem follows_query (w : World) (q : Query) : w.Follows (w.query q).2 [.query q] := by
  have asked : w.Follows (w.submit q.method (.query q)).2 [.query q] := follows_submit rfl
  unfold query
  dsimp only
  split
  · exact asked
  · exact asked
  · exact asked.withLedger _

theorem follows_touch (w : World) (t : Tx) (c : Touch) :
    w.Follows (w.touch t c).2 [.touch c] := by
  have asked : w.Follows (w.submitTouch c).2 [.touch c] := follows_submit rfl
  unfold touch
  generalize w.submitTouch c = reply at asked
  obtain ⟨_ | r, v⟩ := reply
  · dsimp only [reach]
    split
    · exact asked.withLedger _
    · exact asked
  · exact asked

theorem follows_logPause (w : World) (span : Span) (time : Nat) :
    w.Follows { w.logPause span with elapsed := time } [.pause span] :=
  ⟨rfl, fun _ => rfl, rfl, rfl⟩

theorem start_reply (w : World) :
    (∃ r, w.start.1 = .answer r) ∧ ¬ Lost w.faults K [.start] ∨
      w.start.1 = .never ∧ (K .start → Lost w.faults K [.start]) := by
  simp only [lost_singleton (c := .start) rfl, start]
  split
  · next e => exact .inl ⟨⟨_, rfl⟩, by simp [e]⟩
  · next e => exact .inr ⟨rfl, fun k => ⟨k, e⟩⟩
  · next ne => exact .inl ⟨⟨_, rfl⟩, fun lost => ne lost.2⟩

theorem finish_reply (w : World) (t : Tx) (how : Ending) :
    (∃ r, (w.finish t how).1 = .answer r) ∧ ¬ Lost w.faults K [.finish how] ∨
      (w.finish t how).1 = .never ∧ (K (.finish how) → Lost w.faults K [.finish how]) := by
  simp only [lost_singleton (c := .finish how) rfl, finish]
  split
  · next e => exact .inl ⟨⟨_, rfl⟩, by simp [e]⟩
  · next e => exact .inr ⟨rfl, fun k => ⟨k, e⟩⟩
  · next ne => exact .inl ⟨⟨_, rfl⟩, fun lost => ne lost.2⟩

theorem query_reply (w : World) (q : Query) :
    (∃ r, (w.query q).1 = .answer r) ∧ ¬ Lost w.faults K [.query q] ∨
      (w.query q).1 = .never ∧ (K (.query q) → Lost w.faults K [.query q]) := by
  simp only [lost_singleton (c := .query q) rfl, query]
  split
  · next e => exact .inl ⟨⟨_, rfl⟩, by simp [e]⟩
  · next e => exact .inr ⟨rfl, fun k => ⟨k, e⟩⟩
  · next ne => exact .inl ⟨⟨_, rfl⟩, fun lost => ne lost.2⟩

theorem touch_of_lost {c : Touch} (h : Lost w.faults K [.touch c]) :
    (w.touch t c).1 = .never := by
  have stall : (w.submit c.method (.touch c)).1 = .stall := ((lost_singleton rfl).mp h).2
  simp only [World.touch, submitTouch, stall]

end World

/-! ## Work in a transaction -/

namespace Work

/-- Work makes only such calls, whatever it is answered. -/
def Makes (P : Call → Prop) : Work α → Prop
  | .done _ | .fail _ => True
  | .now next => ∀ time, (next time).Makes P
  | .draw _ next => ∀ words, (next words).Makes P
  | .note _ next => next.Makes P
  | .touch c next => P (.touch c) ∧ ∀ a, (next a).Makes P

theorem makes_of_touch (work : Work α) (h : ∀ c, P (.touch c)) : work.Makes P := by
  induction work with
  | done | fail => trivial
  | now next ih => exact ih
  | draw n next ih => exact ih
  | note a next ih => exact ih
  | touch c next ih => exact ⟨h c, ih⟩

/-- **Work** makes calls inside its transaction only, and gets stuck if one of them is lost. -/
theorem run_follows {work : Work α} (h : work.Makes P) (t : Tx) (w : World) :
    ∃ calls, w.Follows (work.run t w).2 calls ∧ (∀ c ∈ calls, P c ∧ ¬ c.Outside) ∧
      (Lost w.faults K calls → (work.run t w).1 = .stuck) := by
  induction work generalizing w with
  | done | fail => exact ⟨[], .refl w, nofun, False.elim⟩
  | now next ih => exact ih _ (h _) w
  | draw n next ih =>
    obtain ⟨calls, follows, rest⟩ := ih _ (h _) (w.takeWords n).2
    exact ⟨calls, ⟨follows.log, follows.script, follows.stopAfter, follows.horizon⟩, rest⟩
  | note a next ih =>
    obtain ⟨calls, follows, rest⟩ := ih h (w.note a)
    exact ⟨calls, ⟨follows.log, follows.script, follows.stopAfter, follows.horizon⟩, rest⟩
  | touch c next ih =>
    have first := w.follows_touch t c
    have lost : Lost w.faults K [.touch c] → (w.touch t c).1 = .never := World.touch_of_lost
    rw [run]
    generalize w.touch t c = dealt at first lost
    obtain ⟨reply, v⟩ := dealt
    have one : ∀ c' ∈ [Call.touch c], P c' ∧ ¬ c'.Outside :=
      List.forall_mem_singleton.mpr ⟨h.1, id⟩
    cases reply with
    | answer r =>
      cases r with
      | ok a =>
        obtain ⟨calls, rest, all, stuck⟩ := ih a (h.2 a) v
        refine ⟨calls ++ [.touch c], first.trans rest, List.forall_mem_append.mpr ⟨all, one⟩,
          fun h => ?_⟩
        rcases (first.lost_append calls).mp h with early | late
        · cases lost early
        · exact stuck late
      | error e =>
        refine ⟨[.touch c], first, one, fun h => ?_⟩
        cases lost h
    | waits | never => exact ⟨[.touch c], first, one, fun _ => rfl⟩

end Work

/-! ## Plans -/

namespace Plan

def Makes (P : Call → Prop) : Plan α → Prop
  | .done _ => True
  | .poll next => ∀ b, (next b).Makes P
  | .now next => ∀ time, (next time).Makes P
  | .start next => P .start ∧ ∀ r, (next r).Makes P
  | .attempt _ _ work next => work.Makes P ∧ ∀ r, (next r).Makes P
  | .finish _ how next => P (.finish how) ∧ ∀ r, (next r).Makes P
  | .pause span next => P (.pause span) ∧ next.Makes P
  | .query q next => P (.query q) ∧ ∀ r, (next r).Makes P

theorem Makes.bind {p : Plan α} {f : α → Plan β} (h : p.Makes P) (hf : ∀ a, (f a).Makes P) :
    (p.bind f).Makes P := by
  induction p with
  | done a => exact hf a
  | poll next ih => exact fun b => ih b (h b)
  | now next ih => exact fun time => ih time (h time)
  | start next ih | attempt _ _ _ next ih | finish _ _ next ih | query _ next ih =>
    exact ⟨h.1, fun r => ih r (h.2 r)⟩
  | pause span next ih => exact ⟨h.1, ih h.2⟩

end Plan

/-- Such calls lead from a world to what a run comes to. If nobody gives the run up, it never ends
exactly if it loses a call outside attempts. -/
def World.Traces (w : World) (P : Call → Prop) (result : Run α × World) : Prop :=
  ∃ calls, w.Follows result.2 calls ∧ (∀ c ∈ calls, P c) ∧
    (w.horizon = none → (result.1 = .hung ↔ Lost w.faults Call.Outside calls))

theorem World.Follows.traces {result : Run α × World} (first : w.Follows v calls)
    (made : ∀ c ∈ calls, P c) (kept : ¬ Lost w.faults Call.Outside calls)
    (rest : v.Traces P result) : w.Traces P result := by
  obtain ⟨calls', follows, made', hung⟩ := rest
  refine ⟨calls' ++ calls, first.trans follows, List.forall_mem_append.mpr ⟨made', made⟩,
    fun patient => ?_⟩
  rw [hung (first.horizon.trans patient), first.lost_append, or_iff_right kept]

/-- **A run never ends exactly if it loses a call outside attempts**, unless it is given up. -/
theorem Plan.run_follows {p : Plan α} (h : p.Makes P) (w : World) : w.Traces P (p.run w) := by
  induction p generalizing w with
  | done a => exact ⟨[], .refl w, nofun, fun _ => ⟨nofun, False.elim⟩⟩
  | poll next ih => exact ih _ (h _) w
  | now next ih => exact ih _ (h _) w
  | start next ih =>
    have first := w.follows_start
    have one : ∀ c ∈ [Call.start], P c := List.forall_mem_singleton.mpr h.1
    rcases w.start_reply (K := Call.Outside) with ⟨⟨r, e⟩, kept⟩ | ⟨e, lost⟩
    all_goals
      rw [Plan.run]
      generalize w.start = dealt at first e
      obtain ⟨_, v⟩ := dealt
      subst e
    · exact first.traces one kept (ih r (h.2 r) v)
    · exact ⟨_, first, one, fun _ => ⟨fun _ => lost trivial, fun _ => rfl⟩⟩
  | finish t how next ih =>
    have first := w.follows_finish t how
    have one : ∀ c ∈ [Call.finish how], P c := List.forall_mem_singleton.mpr h.1
    rcases w.finish_reply (K := Call.Outside) t how with ⟨⟨r, e⟩, kept⟩ | ⟨e, lost⟩
    all_goals
      rw [Plan.run]
      generalize w.finish t how = dealt at first e
      obtain ⟨_, v⟩ := dealt
      subst e
    · exact first.traces one kept (ih r (h.2 r) v)
    · exact ⟨_, first, one, fun _ => ⟨fun _ => lost trivial, fun _ => rfl⟩⟩
  | query q next ih =>
    have first := w.follows_query q
    have one : ∀ c ∈ [Call.query q], P c := List.forall_mem_singleton.mpr h.1
    rcases w.query_reply (K := Call.Outside) q with ⟨⟨r, e⟩, kept⟩ | ⟨e, lost⟩
    all_goals
      rw [Plan.run]
      generalize w.query q = dealt at first e
      obtain ⟨_, v⟩ := dealt
      subst e
    · exact first.traces one kept (ih r (h.2 r) v)
    · exact ⟨_, first, one, fun _ => ⟨fun _ => lost trivial, fun _ => rfl⟩⟩
  | attempt t limit work next ih =>
    obtain ⟨calls, first, made, -⟩ := work.run_follows (K := Call.Outside) h.1 t w
    have kept : ¬ Lost w.faults Call.Outside calls := not_lost fun c hc => (made c hc).2
    have made : ∀ c ∈ calls, P c := fun c hc => (made c hc).1
    rw [Plan.run]
    generalize work.run t w = done at first
    obtain ⟨result, v⟩ := done
    cases result with
    | finished r => exact first.traces made kept (ih r (h.2 r) v)
    | stuck =>
      dsimp only
      split
      · next late =>
        refine ⟨calls, first, made, fun patient => absurd late ?_⟩
        rw [World.beyond, first.horizon, patient]
        exact Bool.false_ne_true
      · have first : w.Follows { v with elapsed := v.elapsed + limit.nanos } calls :=
          ⟨first.log, first.script, first.stopAfter, first.horizon⟩
        exact first.traces made kept (ih _ (h.2 _) _)
  | pause span next ih =>
    have one : ∀ c ∈ [Call.pause span], P c := List.forall_mem_singleton.mpr h.1
    have kept : ¬ Lost w.faults Call.Outside [.pause span] := fun lost => by
      obtain ⟨-, m, filed, -⟩ | none := lost
      · cases filed
      · exact none
    rw [Plan.run]
    split
    · exact (w.follows_logPause span w.elapsed).traces one kept (ih h.2 _)
    · split
      · next late =>
        refine ⟨[.pause span], w.follows_logPause span w.elapsed, one, fun patient => ?_⟩
        refine absurd late ?_
        rw [World.beyond, patient]
        exact Bool.false_ne_true
      · exact (w.follows_logPause span _).traces one kept (ih h.2 _)

end Docket
