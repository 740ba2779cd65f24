import Docket.Issue.Generate
import Docket.Run.World

/-!
# Running alone

An operation runs with nothing else going on. A call that waits or never comes back then stays so:
in an attempt it lasts until the attempt's time is up, and elsewhere it lasts for ever.

* `Halt`, **`Work.run`**: how work ends in a transaction;
* `Run`, **`Plan.run`**: how a plan ends.
-/

namespace Docket

/-- How work ends. -/
inductive Halt (α : Type) where
  | finished (r : Except Error α)
  /-- A call waits for a key or never comes back. -/
  | stuck

/-- Works in a transaction. -/
def Work.run {α : Type} (t : Tx) : Work α → World → Halt α × World
  | .done a, w => (.finished (.ok a), w)
  | .fail e, w => (.finished (.error e), w)
  | .now next, w => (next w.now).run t w
  | .draw n next, w => (next (w.takeWords n).1).run t (w.takeWords n).2
  | .note a next, w => next.run t (w.note a)
  | .touch c next, w =>
    match w.touch t c with
    | (.answer (.ok a), w) => (next a).run t w
    | (.answer (.error e), w) => (.finished (.error (.ledger e)), w)
    | (.waits, w) | (.never, w) => (.stuck, w)

/-- How a plan ends. -/
inductive Run (α : Type) where
  | finished (a : α)
  /-- The plan never ends, or not before the horizon. -/
  | hung

/-- Carries out a plan. -/
def Plan.run {α : Type} : Plan α → World → Run α × World
  | .done a, w => (.finished a, w)
  | .poll next, w => (next w.isCancelled).run w
  | .now next, w => (next w.now).run w
  | .start next, w =>
    match w.start with
    | (.answer r, w) => (next r).run w
    | (_, w) => (.hung, w)
  | .attempt t limit work next, w =>
    match work.run t w with
    | (.finished r, w) => (next r).run w
    | (.stuck, w) =>
      if w.beyond (w.elapsed + limit.nanos) then (.hung, w)
      else (next (.error (.ledger (.timeout limit)))).run
        { w with elapsed := w.elapsed + limit.nanos }
  | .finish t how next, w =>
    match w.finish t how with
    | (.answer r, w) => (next r).run w
    | (_, w) => (.hung, w)
  | .pause span next, w =>
    if w.restless then next.run (w.logPause span)
    else if w.beyond (w.elapsed + span.nanos) then (.hung, w.logPause span)
    else next.run { w.logPause span with elapsed := w.elapsed + span.nanos }
  | .query q next, w =>
    match w.query q with
    | (.answer r, w) => (next r).run w
    | (_, w) => (.hung, w)

end Docket
