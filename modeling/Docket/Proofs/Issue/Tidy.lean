import Docket.Proofs.Issue.Scope
import Docket.Proofs.Run.Calm

/-!
# Attempts are tidy

* `Scope.tidy`: the scope of tidy work;
* **`Series.tidy_allocate`**, `Series.tidy_candidate`: an allocation and an attempt need the key of
  the counter only, and what makes them fail will make them fail again.
-/

namespace Docket

def Scope.tidy (now : Time) (key : String) : Scope where
  times := (· = now)
  keys := (· = key)
  errors e := e.isTransient = false

theorem Work.Within.tidy {α : Type} {work : Work α} {now : Time} {key : String}
    (h : work.Within (.tidy now key)) : work.Tidy now key := by
  induction work with
  | done a => trivial
  | fail e => exact h
  | now next ih => exact ih now (h now rfl)
  | draw n next ih => exact fun words => ih words (h words)
  | note a next ih => exact ih h.2
  | touch c next ih => exact ⟨h.1, fun a => ih a (h.2 a)⟩

namespace Series

variable {s : Series} {now : Time}

theorem tidy_admits : (Scope.tidy now (s.key now)).Admits s where
  keys _ same := congrArg s.key same
  errors _ lasting := lasting

/-- **An allocation is tidy.** -/
theorem tidy_allocate : (s.allocate now).Tidy now (s.key now) :=
  (within_allocate (tidy_admits.keys now rfl) tidy_admits.errors).tidy

theorem tidy_write (a : Allocation) : (s.write a).Tidy now (s.key now) :=
  (within_write tidy_admits.errors a).tidy

/-- **An attempt is tidy.** -/
theorem tidy_candidate : s.candidate.Tidy now (s.key now) := (within_candidate tidy_admits).tidy

end Series

end Docket
