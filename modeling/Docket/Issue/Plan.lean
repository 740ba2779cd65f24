import Docket.Issue.Allocate

/-!
# Plans

A plan is what an operation does on the outside of transactions: it opens and ends them, makes
bounded attempts in them, pauses, and asks whether it was told to stop.

* `Plan`: a tree of such actions, each answered by the surroundings;
* `Plan.bind`: one plan after another.
-/

namespace Docket

/-- A plan that ends in a value. -/
inductive Plan (α : Type) where
  | done (a : α)
  /-- Asks whether the operation was told to stop. -/
  | poll (next : Bool → Plan α)
  /-- Reads the clock. -/
  | now (next : Time → Plan α)
  /-- Opens a transaction. -/
  | start (next : Except LedgerError Tx → Plan α)
  /-- Works on an identifier inside a transaction, for `limit` at most. -/
  | attempt (t : Tx) (limit : Span) (work : Work Candidate)
      (next : Except Error Candidate → Plan α)
  /-- Ends a transaction. -/
  | finish (t : Tx) (how : Ending) (next : Except LedgerError Unit → Plan α)
  /-- Pauses. -/
  | pause (span : Span) (next : Plan α)
  /-- Makes a call outside any transaction. -/
  | query (q : Query) (next : Except LedgerError q.Answer → Plan α)

namespace Plan

variable {α β : Type}

/-- One plan after another. -/
def bind : Plan α → (α → Plan β) → Plan β
  | .done a, f => f a
  | .poll next, f => .poll fun b => (next b).bind f
  | .now next, f => .now fun t => (next t).bind f
  | .start next, f => .start fun r => (next r).bind f
  | .attempt t limit work next, f => .attempt t limit work fun r => (next r).bind f
  | .finish t how next, f => .finish t how fun r => (next r).bind f
  | .pause span next, f => .pause span (next.bind f)
  | .query q next, f => .query q fun r => (next r).bind f

instance : Monad Plan where
  pure := .done
  bind := Plan.bind

/-- Asks whether the operation was told to stop. -/
def isCancelled : Plan Bool := .poll .done

/-- Reads the clock. -/
def readClock : Plan Time := .now .done

/-- Makes a call outside any transaction. -/
def ask (q : Query) : Plan (Except LedgerError q.Answer) := .query q .done

end Plan

end Docket
