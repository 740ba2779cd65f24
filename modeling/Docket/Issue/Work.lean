import Docket.Ledger.Call
import Docket.Series

/-!
# Work inside a transaction

What an attempt does inside its transaction is a tree of calls. Each node is one thing that the
surroundings answer; a failed call ends the work.

* `Work`: reading the clock, drawing random words, calls on the ledger, and the note that an
  allocation is complete;
* `Work.bind`, `Work.lift`: one piece of work after another, and a result or an error as work.
-/

namespace Docket

/-- Work inside a transaction that ends in a value or an error. -/
inductive Work (α : Type) where
  | done (a : α)
  | fail (e : Error)
  /-- Reads the clock. -/
  | now (next : Time → Work α)
  /-- Draws random words. -/
  | draw (count : Nat) (next : List UInt64 → Work α)
  /-- Notes that an allocation is complete. -/
  | note (a : Allocation) (next : Work α)
  /-- Makes a call; if it fails, the work fails with it. -/
  | touch (call : Touch) (next : call.Answer → Work α)

namespace Work

variable {α β : Type}

/-- One piece of work after another. -/
def bind : Work α → (α → Work β) → Work β
  | .done a, f => f a
  | .fail e, _ => .fail e
  | .now next, f => .now fun t => (next t).bind f
  | .draw n next, f => .draw n fun words => (next words).bind f
  | .note a next, f => .note a (next.bind f)
  | .touch call next, f => .touch call fun answer => (next answer).bind f

instance : Monad Work where
  pure := .done
  bind := Work.bind

/-- A result or an error. -/
def lift : Except Error α → Work α
  | .ok a => .done a
  | .error e => .fail e

/-- Reads the clock. -/
def readClock : Work Time := .now .done

/-- Draws random words. -/
def drawWords (count : Nat) : Work (List UInt64) := .draw count .done

/-- An allocation that is complete. -/
def complete (a : Allocation) : Work Allocation := .note a (.done a)

/-- Makes a call. -/
def call (c : Touch) : Work c.Answer := .touch c .done

theorem bind_assoc {γ : Type} (w : Work α) (f : α → Work β) (g : β → Work γ) :
    (w.bind f).bind g = w.bind fun a => (f a).bind g := by
  induction w with
  | done => rfl
  | fail => rfl
  | now next ih => simp only [bind, ih]
  | draw n next ih => simp only [bind, ih]
  | note a next ih => simp only [bind, ih]
  | touch c next ih => simp only [bind, ih]

end Work

end Docket
