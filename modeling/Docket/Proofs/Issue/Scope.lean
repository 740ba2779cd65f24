import Docket.Proofs.Issue.Refuses
import Docket.Proofs.Issue.Shape

/-!
# What an issue may ask for

What work and plans may ask of their surroundings is read off them, whatever they are answered. An
issue comes down to its attempts, and these to the keys of one series.

* `Series.within_allocate`, **`Series.within_candidate`**: an allocation and an attempt;
* `within_retrying`, `Series.within_issueOne`, **`Series.within_issueBatch`**: whole issues.
-/

namespace Docket

/-- What work and plans may ask for. -/
structure Scope where
  /-- What the clock may show. -/
  times : Time → Prop
  /-- The counters that may be asked about. -/
  keys : String → Prop
  /-- What work may end in by itself. -/
  errors : Error → Prop

def Query.key? : Query → Option String
  | .get key | .remove key => some key
  | .findExisting .. => none

variable {α β : Type} {scope : Scope} {s : Series} {r : RetrySettings} {now : Time} {t : Tx}

/-! ## Work in a transaction -/

namespace Work

/-- Work asks for nothing else, whatever it is answered. -/
def Within (scope : Scope) : Work α → Prop
  | .done _ => True
  | .fail e => scope.errors e
  | .now next => ∀ time, scope.times time → (next time).Within scope
  | .draw _ next => ∀ words, (next words).Within scope
  | .note a next => scope.keys a.key ∧ next.Within scope
  | .touch c next => (∀ key, c.key? = some key → scope.keys key) ∧ ∀ a, (next a).Within scope

theorem Within.bind {work : Work α} {f : α → Work β} (h : work.Within scope)
    (hf : ∀ a, (f a).Within scope) : (work.bind f).Within scope := by
  induction work with
  | done a => exact hf a
  | fail e => exact h
  | now next ih => exact fun time allowed => ih time (h time allowed)
  | draw n next ih => exact fun words => ih words (h words)
  | note a next ih => exact ⟨h.1, ih h.2⟩
  | touch c next ih => exact ⟨h.1, fun a => ih a (h.2 a)⟩

theorem within_lift {x : Except Error α} (h : Refuses x)
    (lasting : ∀ e, e.isTransient = false → scope.errors e) : (lift x).Within scope := by
  cases x with
  | ok a => trivial
  | error e => exact lasting e (h e rfl)

end Work

namespace Series

theorem within_freshen (key : scope.keys (s.key now)) (seed : Mark) :
    (s.freshen (s.key now) seed now).Within scope := by
  unfold freshen
  split
  · refine ⟨fun _ e => Option.some.inj e ▸ key, fun record => ?_⟩
    cases record with
    | none => trivial
    | some c =>
      show (ite _ _ _ : Work Bool).Within scope
      split
      · exact ⟨fun _ e => Option.some.inj e ▸ key, fun _ => trivial⟩
      · trivial
  · trivial

theorem within_settle (key : scope.keys (s.key now))
    (lasting : ∀ e, e.isTransient = false → scope.errors e) (rotated : Bool) (c : Counter) :
    (s.settle now rotated c).Within scope := by
  unfold settle advance
  split
  · split
    · split
      · exact lasting _ rfl
      · exact ⟨fun _ e => Option.some.inj e ▸ key, fun _ => ⟨key, trivial⟩⟩
    · exact ⟨key, trivial⟩
  · exact ⟨key, trivial⟩

/-- **An allocation** is about one counter. -/
theorem within_allocate (key : scope.keys (s.key now))
    (lasting : ∀ e, e.isTransient = false → scope.errors e) :
    (s.allocate now).Within scope := by
  rw [allocate_eq]
  exact fun words => (within_freshen key _).bind fun rotated =>
    ⟨fun _ e => Option.some.inj e ▸ key, fun c => within_settle key lasting rotated c⟩

theorem within_write (lasting : ∀ e, e.isTransient = false → scope.errors e) (a : Allocation) :
    (s.write a).Within scope :=
  fun _ => Work.within_lift (refuses_format a _) lasting

theorem within_check (lasting : ∀ e, e.isTransient = false → scope.errors e) (a : Allocation) :
    (s.check a).Within scope :=
  (within_write lasting a).bind fun _ => ⟨nofun, fun _ => trivial⟩

end Series

/-- A scope allows what a series needs. -/
structure Scope.Admits (scope : Scope) (s : Series) : Prop where
  keys : ∀ now, scope.times now → scope.keys (s.key now)
  errors : ∀ e, e.isTransient = false → scope.errors e

/-- **An attempt** is about the counter at the time that it reads on the clock. -/
theorem Series.within_candidate (h : scope.Admits s) : s.candidate.Within scope := by
  rw [candidate_eq]
  exact fun now allowed => (within_allocate (h.keys now allowed) h.errors).bind
    (within_check h.errors)

/-! ## Plans -/

namespace Plan

@[inherit_doc Work.Within]
def Within (scope : Scope) : Plan α → Prop
  | .done _ => True
  | .poll next => ∀ b, (next b).Within scope
  | .now next => ∀ time, scope.times time → (next time).Within scope
  | .start next => ∀ r, (next r).Within scope
  | .attempt _ _ work next => work.Within scope ∧ ∀ r, (next r).Within scope
  | .finish _ _ next => ∀ r, (next r).Within scope
  | .pause _ next => next.Within scope
  | .query q next => (∀ key, q.key? = some key → scope.keys key) ∧ ∀ r, (next r).Within scope

theorem Within.bind {p : Plan α} {f : α → Plan β} (h : p.Within scope)
    (hf : ∀ a, (f a).Within scope) : (p.bind f).Within scope := by
  induction p with
  | done a => exact hf a
  | poll next ih => exact fun b => ih b (h b)
  | now next ih => exact fun time allowed => ih time (h time allowed)
  | start next ih => exact fun r => ih r (h r)
  | attempt t limit work next ih => exact ⟨h.1, fun r => ih r (h.2 r)⟩
  | finish t how next ih => exact fun r => ih r (h r)
  | pause span next ih => exact ih h
  | query q next ih => exact ⟨h.1, fun r => ih r (h.2 r)⟩

end Plan

theorem within_retrying (r : RetrySettings) {attempt : Plan Attempt} (h : attempt.Within scope)
    (left : Nat) (last : Option LedgerError) : (retrying r attempt left last).Within scope := by
  induction left generalizing last with
  | zero => trivial
  | succ left ih =>
    intro stop
    cases stop with
    | true => trivial
    | false =>
      refine h.bind fun a => ?_
      cases a with
      | issued | fatal => trivial
      | collided => exact ih last
      | transient e =>
        dsimp only
        split
        · exact ih _
        · exact ih _

namespace Series

theorem within_attemptIn (h : scope.Admits s) : (s.attemptIn r t).Within scope :=
  ⟨within_candidate h, fun _ => trivial⟩

theorem within_attemptAlone (h : scope.Admits s) : (s.attemptAlone r).Within scope := by
  rintro (e | t)
  · trivial
  · refine ⟨within_candidate h, ?_⟩
    rintro (e | ⟨id | id⟩)
    · exact fun _ => trivial
    · rintro (e | _) <;> trivial
    · exact fun _ => trivial

theorem within_issueOne (h : scope.Admits s) : (s.issueOne r).Within scope :=
  within_retrying r (within_attemptAlone h) _ _

theorem within_issueRest (h : scope.Admits s) (left : Nat) (ids : List String) :
    (s.issueRest r t left ids).Within scope := by
  induction left generalizing ids with
  | zero => rintro (e | _) <;> trivial
  | succ left ih =>
    refine (within_retrying r (within_attemptIn h) _ _).bind ?_
    rintro (e | id)
    · exact fun _ => trivial
    · exact ih _

theorem within_issueBatch (h : scope.Admits s) (n : Nat) :
    (s.issueBatch r n).Within scope := by
  unfold issueBatch
  split
  · trivial
  · rintro (_ | _)
    · rintro (e | t)
      · trivial
      · exact within_issueRest h n []
    · trivial

end Series

end Docket
