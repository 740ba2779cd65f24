import Docket.Issue.Generate

/-!
# The shape of an attempt

* `Series.allocate_eq`, `Series.candidate_eq`: an allocation and an attempt, call by call;
* `Attempt.close`, `Series.attemptAlone_eq`: how an attempt ends its own transaction.
-/

namespace Docket

namespace Attempt

/-- How an attempt in its own transaction ends it, after its work. -/
def close (t : Tx) : Except Error Candidate → Plan Attempt
  | .ok (.clear id) => .finish t .commit fun
    | .ok () => .done (.issued id)
    | .error e => .done (.ofError (.ledger e))
  | result => .finish t .abort fun _ => .done (.ofResult result)

theorem ofError_ne_issued (e : Error) (id : String) : ofError e ≠ .issued id := by
  unfold ofError
  split
  · split <;> nofun
  · nofun

theorem eq_clear_of_issued {result : Except Error Candidate} {id : String}
    (h : ofResult result = .issued id) : result = .ok (.clear id) := by
  match result with
  | .ok (.clear id') => cases h; rfl
  | .ok (.taken _) => cases h
  | .error e => exact absurd h (ofError_ne_issued e id)

end Attempt

namespace Series

variable (s : Series) (now : Time)

def settle (rotated : Bool) (c : Counter) : Work Allocation :=
  (s.advance (s.key now) now c rotated).bind Work.complete

abbrev addition (words : List UInt64) : Touch := .increment (s.key now) 1 (s.seed now words) now

def check (a : Allocation) : Work Candidate :=
  (s.write a).bind fun id => .touch (.recorded s.field id) fun taken =>
    .done (if taken then .taken id else .clear id)

theorem allocate_eq : s.allocate now = .draw s.seedWords fun words =>
    (s.freshen (s.key now) (s.seed now words) now).bind fun rotated =>
      .touch (s.addition now words) (s.settle now rotated) := rfl

theorem candidate_eq : s.candidate = .now fun now => (s.allocate now).bind s.check := rfl

/-- An attempt asks for the key of its counter first, whichever series it is for. -/
theorem candidate_asks (words : List UInt64) :
    ∃ (c : Touch) (next : c.Answer → Work Candidate), c.key? = some (s.key now) ∧
      ((s.freshen (s.key now) (s.seed now words) now).bind fun rotated =>
        .touch (s.addition now words) (s.settle now rotated)).bind s.check = .touch c next := by
  cases s <;> exact ⟨_, _, rfl, rfl⟩

theorem attemptAlone_eq (r : RetrySettings) : s.attemptAlone r = .start fun
    | .error e => .done (.ofError (.ledger e))
    | .ok t => .attempt t r.attemptTimeout s.candidate (Attempt.close t) := rfl

end Series

end Docket
