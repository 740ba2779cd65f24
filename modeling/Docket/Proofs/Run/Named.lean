import Docket.Proofs.Issue.Scope
import Docket.Proofs.Run.Stalls

/-!
# The counters that a run is about

Which counters the calls of a run can be about is read off its plan, whatever fails or stalls and
whatever the clock shows on the way.

* `Plan.Within.makes`, **`Plan.run_called`**: runs of plans within a scope log only calls on its
  counters.
-/

namespace Docket

variable {α : Type} {scope : Scope}

def Call.key? : Call → Option String
  | .touch c => c.key?
  | .query q => q.key?
  | .start | .finish _ | .pause _ => none

/-- Whether a call is about a counter with such a key, if it is about any. -/
def Call.Within (K : String → Prop) (c : Call) : Prop := ∀ key, c.key? = some key → K key

/-- The second world has been reached from the first with calls on such counters only. -/
def World.Called (w v : World) (K : String → Prop) : Prop :=
  ∃ calls, v.log = calls ++ w.log ∧ ∀ c ∈ calls, c.Within K

/-! ## Runs -/

theorem Work.Within.makes {work : Work α} (h : work.Within scope)
    (any : ∀ time, scope.times time) : work.Makes (Call.Within scope.keys) := by
  induction work with
  | done | fail => trivial
  | now next ih => exact fun time => ih time (h time (any time))
  | draw n next ih => exact fun words => ih words (h words)
  | note a next ih => exact ih h.2
  | touch c next ih => exact ⟨h.1, fun a => ih a (h.2 a)⟩

theorem Plan.Within.makes {p : Plan α} (h : p.Within scope) (any : ∀ time, scope.times time) :
    p.Makes (Call.Within scope.keys) := by
  induction p with
  | done a => trivial
  | poll next ih => exact fun b => ih b (h b)
  | now next ih => exact fun time => ih time (h time (any time))
  | start next ih => exact ⟨nofun, fun r => ih r (h r)⟩
  | attempt t limit work next ih => exact ⟨h.1.makes any, fun r => ih r (h.2 r)⟩
  | finish t how next ih => exact ⟨nofun, fun r => ih r (h r)⟩
  | pause span next ih => exact ⟨nofun, ih h⟩
  | query q next ih => exact ⟨h.1, fun r => ih r (h.2 r)⟩

/-- **A run logs no call on any other counter**, whatever fails or stalls and whatever the clock
shows on the way. -/
theorem Plan.run_called {p : Plan α} (h : p.Within scope) (any : ∀ time, scope.times time)
    (w : World) : w.Called (p.run w).2 scope.keys := by
  obtain ⟨calls, follows, within, -⟩ := run_follows (h.makes any) w
  exact ⟨calls, follows.log, within⟩

/-! ## Series -/

/-- Whether a counter is that of a series at some time. -/
def Series.Owns (s : Series) (key : String) : Prop := ∃ now, key = s.key now

/-- What is about the counters of a series only, whatever the clock shows. -/
def Scope.own (s : Series) : Scope where
  times _ := True
  keys := s.Owns
  errors _ := True

theorem Series.own_admits (s : Series) : (Scope.own s).Admits s where
  keys now _ := ⟨now, rfl⟩
  errors _ _ := trivial

end Docket
