import Docket.Issue.Work

/-!
# Allocation

* `Series.freshen`: in a new month, a counter with calendar rotation is set back to zero;
* `Series.advance`: past the last sequence, a counter with overflow rotation moves to the next
  digit;
* **`Series.allocate`**: the next sequence of the counter at a time;
* `Series.candidate`: an identifier for the next sequence, and whether a record already carries it.
-/

namespace Docket

/-- An identifier, and whether it may be used. -/
inductive Candidate where
  | clear (id : String)
  /-- A record carries the identifier already. -/
  | taken (id : String)
deriving DecidableEq, Repr

namespace Series

/-- In a new month, sets a counter with calendar rotation back to zero; whether it did. -/
def freshen (s : Series) (key : String) (seed : Mark) (now : Time) : Work Bool :=
  match s.rotation with
  | .calendar => do
    match ← Work.call (.getIn key) with
    | none => return false
    | some c =>
      if c.IsStale now then
        let _ ← Work.call (.set key 0 seed now)
        return true
      else return false
  | _ => return false

/-- The digit after `d`. -/
def nextDigit (d : UInt8) : UInt8 := (d + 1) % RollNumber.radix

/-- Past the last sequence, moves a counter with overflow rotation to the next digit. -/
def advance (s : Series) (key : String) (now : Time) (c : Counter) (rotated : Bool) :
    Work Allocation :=
  match s.rotation with
  | .overflow top =>
    if top < c.sequence then
      match c.mark.digit? with
      | none => .fail (.ledger (.backend (.noDigitToRotate key)))
      | some d => do
        let c ← Work.call (.set key 1 (.digit (nextDigit d)) now)
        return ⟨key, c.sequence, c.mark, true⟩
    else return ⟨key, c.sequence, c.mark, rotated⟩
  | _ => return ⟨key, c.sequence, c.mark, rotated⟩

/-- The next sequence of the counter at a time. A mark is drawn also where the counter has one. -/
def allocate (s : Series) (now : Time) : Work Allocation := do
  let key := s.key now
  let seed := s.seed now (← Work.drawWords s.seedWords)
  let rotated ← s.freshen key seed now
  let c ← Work.call (.increment key 1 seed now)
  Work.complete (← s.advance key now c rotated)

/-- An identifier for an allocation. -/
def write (s : Series) (a : Allocation) : Work String := do
  let words ← Work.drawWords (s.formatWords a)
  Work.lift (s.format a words)

/-- An identifier for the next sequence, and whether a record already carries it. -/
def candidate (s : Series) : Work Candidate := do
  let a ← s.allocate (← Work.readClock)
  let id ← s.write a
  let taken ← Work.call (.recorded s.field id)
  return if taken then .taken id else .clear id

end Series

end Docket
