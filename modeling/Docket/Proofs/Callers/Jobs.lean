import Docket.Proofs.Callers.Guard
import Docket.Proofs.Issue.Scope

/-!
# Guarded jobs

* `Work.Avoids`, `Work.Within.avoids`: work that leaves a key alone is guarded, whatever the
  invariant;
* **`Job.Fits.safe`**, `Job.Allots.fits`: a job is guarded if the work in its attempts is, or if the
  allocations are that it makes.
-/

namespace Docket

open KeyState (Possible)

variable {key : String} {I : KeyState → Prop} {known : Option KeyState} {α β : Type}

/-! ## Work that leaves a key alone -/

/-- What leaves a key alone, whatever the clock shows. -/
def Scope.avoiding (key : String) : Scope where
  times _ := True
  keys := (· ≠ key)
  errors _ := True

namespace Work

/-- Whether work leaves a key alone. -/
def Avoids (key : String) : Work α → Prop
  | .done _ | .fail _ => True
  | .now next => ∀ t, (next t).Avoids key
  | .draw _ next => ∀ words, (next words).Avoids key
  | .note a next => a.key ≠ key ∧ next.Avoids key
  | .touch c next => c.key? ≠ some key ∧ ∀ a, (next a).Avoids key

theorem Avoids.bind {w : Work α} {f : α → Work β} (hw : w.Avoids key) (hf : ∀ a, (f a).Avoids key) :
    (w.bind f).Avoids key := by
  induction w with
  | done a => exact hf a
  | fail => trivial
  | now next ih => exact fun t => ih t (hw t)
  | draw n next ih => exact fun words => ih words (hw words)
  | note a next ih => exact ⟨hw.1, ih hw.2⟩
  | touch c next ih => exact ⟨hw.1, fun a => ih a (hw.2 a)⟩

theorem Within.avoids {w : Work α} (h : w.Within (.avoiding key)) : w.Avoids key := by
  induction w with
  | done | fail => trivial
  | now next ih => exact fun t => ih t (h t trivial)
  | draw n next ih => exact fun words => ih words (h words)
  | note a next ih => exact ⟨h.1, ih h.2⟩
  | touch c next ih => exact ⟨fun e => h.1 key e rfl, fun a => ih a (h.2 a)⟩

theorem Avoids.guarded {w : Work α} (hw : w.Avoids key) (left : ∀ σ, Possible I known σ → I σ) :
    w.Guarded key I known := by
  induction w with
  | done | fail => exact left
  | now next ih => exact fun t => ih t (hw t)
  | draw n next ih => exact fun words => ih words (hw words)
  | note a next ih => rw [Guarded, if_neg hw.1]; exact ih hw.2
  | touch c next ih =>
    rw [Guarded, if_neg hw.1]
    exact ⟨left, fun a => ih a (hw.2 a)⟩

end Work

namespace Series

variable {s : Series} {now : Time}

theorem avoids_check (a : Allocation) : (s.check a).Avoids key :=
  (within_check (fun _ _ => trivial) a).avoids

theorem avoids_allocate (ne : s.key now ≠ key) : (s.allocate now).Avoids key :=
  (within_allocate (show (Scope.avoiding key).keys (s.key now) from ne) fun _ _ => trivial).avoids

end Series

/-! ## Plans -/

namespace Plan

variable {Q : α → Option Tx → Prop} {R : β → Option Tx → Prop} {hand : Option Tx}

theorem Guarded.bind {p : Plan α} {f : α → Plan β} (hp : p.Guarded key I Q hand)
    (hf : ∀ a hand, Q a hand → (f a).Guarded key I R hand) : (p.bind f).Guarded key I R hand := by
  induction p generalizing hand with
  | done a => exact hf a hand hp
  | poll next ih => exact fun b => ih b (hp b)
  | now next ih => exact fun t => ih t (hp t)
  | start next ih => exact ⟨fun e => ih _ (hp.1 e), fun t => ih _ (hp.2 t)⟩
  | attempt t limit work next ih => exact ⟨hp.1, hp.2.1, fun r => ih r (hp.2.2 r)⟩
  | finish t how next ih => exact ⟨hp.1, fun r => ih r (hp.2 r)⟩
  | pause span next ih => exact ih hp
  | query q next ih => exact ⟨hp.1, fun r => ih r (hp.2 r)⟩

end Plan

section Issue

variable {s : Series} {r : RetrySettings} {t : Tx} {hand : Option Tx}

theorem guarded_attemptIn (hs : s.candidate.Guarded key I none) :
    (s.attemptIn r t).Guarded key I (fun _ hand => hand = some t) (some t) :=
  ⟨rfl, hs, fun _ => rfl⟩

theorem guarded_attemptAlone (hs : s.candidate.Guarded key I none) :
    (s.attemptAlone r).Guarded key I (fun _ hand => hand = none) none := by
  refine ⟨fun e => rfl, fun t => ⟨rfl, hs, fun result => ?_⟩⟩
  match result with
  | .ok (.clear id) =>
    refine ⟨rfl, fun ended => ?_⟩
    cases ended <;> rfl
  | .ok (.taken id) => exact ⟨rfl, fun _ => rfl⟩
  | .error e => exact ⟨rfl, fun _ => rfl⟩

theorem guarded_retrying {attempt : Plan Attempt}
    (ha : attempt.Guarded key I (fun _ h => h = hand) hand) (left : Nat)
    (last : Option LedgerError) :
    (retrying r attempt left last).Guarded key I (fun _ h => h = hand) hand := by
  induction left generalizing last with
  | zero => rfl
  | succ left ih =>
    intro stop
    cases stop with
    | true => rfl
    | false =>
      refine ha.bind fun result hand' e => ?_
      subst e
      cases result with
      | issued id => rfl
      | fatal e => rfl
      | collided => exact ih last
      | transient e =>
        show (ite _ _ _ : Plan _).Guarded key I _ _
        split
        · exact ih _
        · exact ih _

theorem guarded_issueIn (hs : s.candidate.Guarded key I none) :
    (s.issueIn r t).Guarded key I (fun _ hand => hand = some t) (some t) :=
  guarded_retrying (guarded_attemptIn hs) _ _

theorem guarded_issueRest (hs : s.candidate.Guarded key I none) (left : Nat) (ids : List String) :
    (s.issueRest r t left ids).Safe key I (some t) := by
  induction left generalizing ids with
  | zero =>
    refine ⟨rfl, fun ended => ?_⟩
    cases ended <;> trivial
  | succ left ih =>
    refine (guarded_issueIn hs).bind fun result hand e => ?_
    subst e
    cases result with
    | ok id => exact ih _
    | error e => exact ⟨rfl, fun _ => trivial⟩

theorem guarded_issueBatch (hs : s.candidate.Guarded key I none) (count : Nat) :
    (s.issueBatch r count).Safe key I none := by
  unfold Series.issueBatch
  split
  · trivial
  · intro stop
    cases stop with
    | true => trivial
    | false => exact ⟨fun e => trivial, fun t => guarded_issueRest hs count []⟩

end Issue

/-! ## Jobs -/

namespace Job

/-- Whether all work that a job does is guarded. -/
def Fits (key : String) (I : KeyState → Prop) : Job → Prop
  | .issueOne s _ | .issueIn s _ _ | .issueBatch s _ _ => s.candidate.Guarded key I none
  | .allocate s now _ _ =>
    ((s.allocate now).bind fun a => .done (.clear a.key) : Work Candidate).Guarded key I none
  | .touch c _ _ => (.touch c fun _ => .done (.clear "") : Work Candidate).Guarded key I none
  | .query q => q ≠ .remove key
  | .start | .finish .. => True

/-- **A job is guarded** if the work in its attempts is. -/
theorem Fits.safe {job : Job} (h : job.Fits key I) : job.plan.Safe key I job.tx? := by
  cases job with
  | issueOne s r =>
    exact (guarded_retrying (guarded_attemptAlone h) _ _).bind fun _ _ _ => trivial
  | issueIn s r t => exact (guarded_issueIn h).bind fun _ _ _ => trivial
  | issueBatch s r count => exact (guarded_issueBatch h count).bind fun _ _ _ => trivial
  | allocate s now limit t => exact ⟨rfl, h, fun _ => trivial⟩
  | touch c limit t => exact ⟨rfl, h, fun _ => trivial⟩
  | start => exact ⟨fun _ => trivial, fun _ => trivial⟩
  | finish how t => exact ⟨rfl, fun _ => trivial⟩
  | query q => exact ⟨h, fun _ => trivial⟩

/-- A job that changes the record under a key only by allocations, of series with a rotation. -/
def Allots (key : String) (rotation : Rotation) : Job → Prop
  | .issueOne s _ | .issueIn s _ _ | .issueBatch s _ _ | .allocate s _ _ _ =>
    ∀ now, s.key now = key → s.rotation = rotation
  | .touch c _ _ => c.key? = some key → c = .getIn key
  | .query q => q ≠ .remove key
  | .start | .finish .. => True

theorem Allots.fits {rotation : Rotation} {job : Job} (h : job.Allots key rotation)
    (allocate : ∀ {s : Series} {now : Time} {f : Allocation → Work Candidate},
      s.key now = key → s.rotation = rotation → (∀ a, (f a).Avoids key) →
        ((s.allocate now).bind f).Guarded key I none) : job.Fits key I := by
  have any : ∀ {s : Series} {now : Time} {f : Allocation → Work Candidate},
      (s.key now = key → s.rotation = rotation) → (∀ a, (f a).Avoids key) →
        ((s.allocate now).bind f).Guarded key I none := by
    intro s now f hs hf
    by_cases hk : s.key now = key
    · exact allocate hk (hs hk) hf
    · exact ((Series.avoids_allocate hk).bind hf).guarded fun σ hσ => hσ
  cases job with
  | issueOne s r | issueIn s r t | issueBatch s r count =>
    exact fun now => any (h now) Series.avoids_check
  | allocate s now limit t => exact any (h now) fun _ => trivial
  | touch c limit t =>
    by_cases hk : c.key? = some key
    · obtain rfl := h hk
      refine .of_touch rfl (fun σ hσ => hσ) fun σ a hσ _ σ' e => ?_
      subst e
      rwa [KeyState.after_of_leaves rfl]
    · exact Work.Avoids.guarded ⟨hk, fun _ => trivial⟩ fun σ hσ => hσ
  | start => trivial
  | finish how t => trivial
  | query q => exact h

end Job

end Docket
