import Docket.Issue.Plan

/-!
# Issuing identifiers

An issue is a bounded number of attempts. An attempt that fails transiently is followed by a pause
and the next one, one whose identifier is taken by the next one at once; any other failure ends the
issue.

* `AttemptStage`: how far an attempt has come;
* `Attempt`, `Attempt.ofResult`: how an attempt ended;
* `Series.attemptIn`, `Series.attemptAlone`: an attempt in a given transaction, and in its own;
* `retrying`: the loop around attempts;
* **`Series.issueOne`**, `Series.issueIn`, **`Series.issueBatch`**: one identifier in its own
  transaction, one in a given transaction, and several in one transaction, all or none.
-/

namespace Docket

/-- How far an attempt has come. -/
inductive AttemptStage where
  | idle
  | allocating
  | formatted
  | collisionChecked
  | committed
  | abortedRetry
  | abortedFatal
deriving DecidableEq, Repr

/-- Whether the attempt is over. -/
def AttemptStage.isTerminal : AttemptStage → Bool
  | .committed | .abortedRetry | .abortedFatal => true
  | _ => false

/-- How an attempt ended. -/
inductive Attempt where
  | issued (id : String)
  | collided
  | transient (e : LedgerError)
  | fatal (e : Error)
deriving DecidableEq, Repr

namespace Attempt

/-- An attempt that ended in an error. -/
def ofError : Error → Attempt
  | .ledger e => if e.isTransient then .transient e else .fatal (.ledger e)
  | e => .fatal e

/-- An attempt whose work ended. -/
def ofResult : Except Error Candidate → Attempt
  | .ok (.clear id) => .issued id
  | .ok (.taken _) => .collided
  | .error e => .ofError e

end Attempt

namespace Series

/-- An attempt in a given transaction, which stays open. -/
def attemptIn (s : Series) (r : RetrySettings) (t : Tx) : Plan Attempt :=
  .attempt t r.attemptTimeout s.candidate fun result => .done (.ofResult result)

/-- An attempt in its own transaction, committed if the identifier is clear. -/
def attemptAlone (s : Series) (r : RetrySettings) : Plan Attempt :=
  .start fun
    | .error e => .done (.ofError (.ledger e))
    | .ok t => .attempt t r.attemptTimeout s.candidate fun
      | .ok (.clear id) => .finish t .commit fun
        | .ok () => .done (.issued id)
        | .error e => .done (.ofError (.ledger e))
      | result => .finish t .abort fun _ => .done (.ofResult result)

end Series

/-- Attempts until one settles the matter, with `left` of `r.maxAttempts` to go. -/
def retrying (r : RetrySettings) (attempt : Plan Attempt) (left : Nat) (last : Option LedgerError) :
    Plan (Except Error String) :=
  match left with
  | 0 => .done (.error (.exhausted r.maxAttempts last))
  | left + 1 => .poll fun stop =>
    if stop then .done (.error .cancelled)
    else attempt.bind fun
      | .issued id => .done (.ok id)
      | .fatal e => .done (.error e)
      | .collided => retrying r attempt left last
      | .transient e =>
        if left = 0 then retrying r attempt left (some e)
        else .pause (r.backoff (r.maxAttempts - left)) (retrying r attempt left (some e))

namespace Series

/-- Issues one identifier, each attempt in its own transaction. -/
def issueOne (s : Series) (r : RetrySettings) : Plan (Except Error String) :=
  retrying r (s.attemptAlone r) r.maxAttempts none

/-- Issues one identifier in a given transaction. -/
def issueIn (s : Series) (r : RetrySettings) (t : Tx) : Plan (Except Error String) :=
  retrying r (s.attemptIn r t) r.maxAttempts none

/-- Issues `left` more identifiers in a transaction and commits, or aborts at the first failure. -/
def issueRest (s : Series) (r : RetrySettings) (t : Tx) (left : Nat) (ids : List String) :
    Plan (Except Error (List String)) :=
  match left with
  | 0 => .finish t .commit fun
    | .ok () => .done (.ok ids.reverse)
    | .error e => .done (.error (.ledger e))
  | left + 1 => (s.issueIn r t).bind fun
    | .ok id => s.issueRest r t left (id :: ids)
    | .error e => .finish t .abort fun _ => .done (.error e)

/-- Issues `count` identifiers in one transaction, all or none. -/
def issueBatch (s : Series) (r : RetrySettings) (count : Nat) : Plan (Except Error (List String)) :=
  if count = 0 then .done (.ok [])
  else .poll fun stop =>
    if stop then .done (.error .cancelled)
    else .start fun
      | .error e => .done (.error (.ledger e))
      | .ok t => s.issueRest r t count []

end Series

end Docket
