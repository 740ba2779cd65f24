import Docket.Ledger.Basic
import Docket.Proofs.Ledger.Locks

/-!
# What a call inside a transaction does

* `Touch.answer`, `Touch.written`: what a call answers and which counter it writes, said of the
  record under its key alone;
* `Ledger.wrote`: the ledger after a call, which differs in that record and in the locks;
* `Ledger.touch_of_not_isOpen`, **`Ledger.touch_of_isOpen`**: every call is one of these.
-/

namespace Docket

open Std (ExtTreeMap)

/-! ## Seen from the record -/

namespace Touch

def added (key : String) (seed : Mark) (now : Time) (r : Option Counter) (n : UInt64) : Counter :=
  { r.getD ⟨key, 0, seed, now⟩ with sequence := n, written := now }

/-- What an addition to a record comes to, if it does not overflow. -/
def sum? (key : String) (step : UInt64) (seed : Mark) (now : Time) (r : Option Counter) :
    Option UInt64 :=
  Ledger.addWords? (r.getD ⟨key, 0, seed, now⟩).sequence step

/-- What a call answers, given the record under its key and whether the value it asks for is on
record. -/
def answer : (c : Touch) → Option Counter → Bool → Except LedgerError c.Answer
  | .getIn _, r, _ => .ok r
  | .increment key step seed now, r, _ =>
    match sum? key step seed now r with
    | some n => .ok (added key seed now r n)
    | none => .error (.backend (.overflowed key))
  | .set key sequence mark now, _, _ => .ok ⟨key, sequence, mark, now⟩
  | .recorded .., _, known => .ok known

/-- The counter a call writes, if it writes one. -/
def written : Touch → Option Counter → Option Counter
  | .getIn _, _ | .recorded .., _ => none
  | .increment key step seed now, r => (sum? key step seed now r).map (added key seed now r)
  | .set key sequence mark now, _ => some ⟨key, sequence, mark, now⟩

def leaves (c : Touch) (r : Option Counter) : Option Counter := (c.written r).or r

section Increment

variable {key : String} {step n : UInt64} {seed : Mark} {now : Time} {r : Option Counter}

theorem answer_increment (h : sum? key step seed now r = some n) (known : Bool) :
    (increment key step seed now).answer r known = .ok (added key seed now r n) := by
  simp only [answer, h]

theorem answer_increment_of_none (h : sum? key step seed now r = none) (known : Bool) :
    (increment key step seed now).answer r known = .error (.backend (.overflowed key)) := by
  simp only [answer, h]

theorem leaves_increment (h : sum? key step seed now r = some n) :
    (increment key step seed now).leaves r = some (added key seed now r n) := by
  simp only [leaves, written, h, Option.map_some, Option.some_or]

end Increment

/-- A call that fails leaves the record as it was, and the same call would fail again. -/
theorem of_answer_error {c : Touch} {r : Option Counter} {known : Bool} {e : LedgerError}
    (h : c.answer r known = .error e) : c.leaves r = r ∧ e.isTransient = false := by
  cases c with
  | getIn => cases h
  | increment key step seed now =>
    simp only [answer] at h
    split at h
    · cases h
    · next hs => cases h; simp [leaves, written, hs, LedgerError.isTransient]
  | set => cases h
  | recorded => cases h

end Touch

/-! ## Seen from the ledger -/

namespace Ledger

variable {l : Ledger} {t : Tx} {c : Touch} {key : String}

def record? (l : Ledger) (c : Touch) : Option Counter := c.key?.bind (l.counters[·]?)

def knows (l : Ledger) : Touch → Bool
  | .recorded field value => decide (l.IsRecorded field value)
  | _ => false

def counted (l : Ledger) (c : Touch) : ExtTreeMap String Counter :=
  match c.key?, c.written (l.record? c) with
  | some key, some counter => l.counters.insert key counter
  | _, _ => l.counters

/-- The ledger after a call, with the locks it left. -/
def wrote (l : Ledger) (c : Touch) (locks : LockTable) : Ledger :=
  { l with locks, counters := l.counted c }

/-- The locks after a transaction has what a call needs. -/
def lockFor? (l : Ledger) (t : Tx) (c : Touch) : Option LockTable :=
  match c.key? with
  | some key => l.locks.take? t.serial key
  | none => some l.locks

theorem toNat_of_addWords? {a n : UInt64} (h : addWords? a 1 = some n) :
    n.toNat = a.toNat + 1 := by
  unfold addWords? at h
  split at h
  · next lt =>
    obtain rfl := Option.some.inj h
    rw [UInt64.toNat_add]
    exact Nat.mod_eq_of_lt lt
  · cases h

theorem touch_of_not_isOpen (h : ¬ l.IsOpen t) :
    l.touch t c = some (.error (.backend .foreignTransaction), l) := by
  cases c with
  | recorded => exact congrArg some (Prod.ext (if_neg h) rfl)
  | _ => exact if_neg h

/-- **A call in an open transaction** waits, or answers and writes what its record tells. -/
theorem touch_of_isOpen (h : l.IsOpen t) :
    l.touch t c = (l.lockFor? t c).map fun locks =>
      (c.answer (l.record? c) (l.knows c), l.wrote c locks) := by
  cases c with
  | getIn key => simp only [touch, getIn, withKey, if_pos h]; rfl
  | increment key step seed now =>
    simp only [touch, increment, withKey, if_pos h, lockFor?, Touch.key?]
    refine congrArg (Option.map · _) (funext fun locks => ?_)
    simp only [Touch.answer, Touch.sum?, wrote, counted, record?, Touch.written, Touch.key?,
      Option.bind_some, counterOr]
    split <;> simp [*, Touch.added]
  | set key sequence mark now => simp only [touch, set, withKey, if_pos h]; rfl
  | recorded field value => simp only [touch, recorded, if_pos h]; rfl

theorem getElem?_counted (hk : c.key? = some key) :
    (l.counted c)[key]? = c.leaves l.counters[key]? := by
  have hr : l.record? c = l.counters[key]? := by rw [record?, hk]; rfl
  rw [counted, hk, hr, Touch.leaves]
  cases hw : c.written l.counters[key]? with
  | none => rfl
  | some counter => exact ExtTreeMap.getElem?_insert_self

theorem getElem?_counted_of_ne (hk : c.key? ≠ some key) :
    (l.counted c)[key]? = l.counters[key]? := by
  rw [counted]
  split
  · next k counter hk' _ =>
    have : k ≠ key := fun e => hk (e ▸ hk')
    rw [ExtTreeMap.getElem?_insert, if_neg (by simpa using this)]
  · rfl

end Ledger

end Docket
