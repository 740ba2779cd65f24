import Docket.CommandLine.Command
import Docket.Json.Reader
import Docket.Json.Writer
import Docket.Ledger.Snapshot
import Docket.Run.Alone
import Docket.Text.Blank

/-!
# Carrying out an invocation

An invocation reads its configuration and its ledger, serves one request, adds the identifiers that
it issued to the records, and leaves the changed ledger behind.

* `Reading`, `Surroundings`: what a path leads to, and what an invocation finds;
* `Failure`, `Failure.message`, `Failure.cause?`: why an invocation fails, its wording, and the
  error behind it;
* `Invocation.desk`, `Invocation.ledger`, `Invocation.time`: the settings, the ledger and the time;
* **`Invocation.visit`**: what an invocation prints and the state it leaves.
-/

namespace Docket.CommandLine

/-- What a path leads to. -/
inductive Reading where
  | absent
  /-- Something that is no text. -/
  | unreadable
  | text (s : String)
deriving DecidableEq, Repr

/-- What an invocation finds. -/
structure Surroundings where
  files : String → Reading
  /-- The time on the local clock. -/
  now : Time
  /-- Noon of a date on the local clock, if the date has one. -/
  noon : Date → Option Time
  words : Nat → UInt64
  stopped : Bool := false

/-! ## Failures -/

/-- Why an invocation fails. -/
inductive Failure where
  | configUnreadable (path : String)
  | configMalformed (path : String)
  | noAttemptTime
  | settings (e : Error)
  | tooMany (count : Nat)
  | stateUnreadable (path : String)
  | stateMalformed (path : String)
  | noNoon (date : Date)
  | existingUnreadable (path : String)
  | request (e : Error)
  /-- The request is never answered. -/
  | unanswered
  | stateUnwritten (path : String)
  | stateUnreplaced (path : String)
deriving DecidableEq, Repr

/-- The most identifiers an invocation may name. -/
def maxCount : Nat := 10000

/-- Where the new state is written before it takes the place of the old. -/
def stagingPath (path : String) : String := path ++ ".tmp"

namespace Failure

/-- The wording of a failure. -/
def message : Failure → String
  | .configUnreadable path => s!"failed to read config `{path}`"
  | .configMalformed path => s!"failed to parse config `{path}`"
  | .noAttemptTime => "REGISTRAR_ATTEMPT_TIMEOUT_MS must be greater than 0"
  | .settings _ => "invalid generator configuration"
  | .tooMany count => s!"count ({count}) exceeds the per-invocation limit of {maxCount}"
  | .stateUnreadable path => s!"failed to read state `{path}`"
  | .stateMalformed path => s!"failed to parse state `{path}`"
  | .noNoon date => s!"{date.text} has no local noon"
  | .existingUnreadable path => s!"failed to read existing records `{path}`"
  | .request e => e.message
  | .unanswered => "the request was not answered"
  | .stateUnwritten path => s!"failed to write state `{stagingPath path}`"
  | .stateUnreplaced path => s!"failed to replace state `{path}`"

/-- The error behind a failure. -/
def cause? : Failure → Option Error
  | .settings e | .request e => some e
  | _ => none

end Failure

/-! ## Preparation -/

namespace Invocation

/-- The settings in the configuration file. -/
def configured (i : Invocation) (files : String → Reading) : Except Failure Settings :=
  match i.config with
  | none => .ok {}
  | some path =>
    match files path with
    | .text s =>
      ((Json.parse? s).bind Settings.ofJson?).elim (.error (.configMalformed path)) .ok
    | _ => .error (.configUnreadable path)

/-- Settings under the options that override them. -/
def override (i : Invocation) (s : Settings) : Except Failure Settings :=
  if i.attemptTimeoutMs = some 0 then .error .noAttemptTime
  else .ok { s with
    retry := ⟨i.maxAttempts.getD s.retry.maxAttempts, i.baseDelayMs.getD s.retry.baseDelayMs,
      i.attemptTimeoutMs.getD s.retry.attemptTimeoutMs⟩ }

/-- Refuses a command that names too many identifiers. -/
def checkCount (i : Invocation) : Except Failure Unit :=
  match i.command.count? with
  | some count => if maxCount < count then .error (.tooMany count) else .ok ()
  | none => .ok ()

/-- The desk that serves the request. -/
def desk (i : Invocation) (files : String → Reading) : Except Failure Desk := do
  let settings ← i.override (← i.configured files)
  let desk ← (Desk.ofSettings settings).mapError .settings
  i.checkCount
  return desk

/-- The ledger in the state file; it is empty where there is no such file. -/
def ledger (i : Invocation) (files : String → Reading) : Except Failure Ledger :=
  match i.state with
  | none => .ok {}
  | some path =>
    match files path with
    | .absent => .ok {}
    | .unreadable => .error (.stateUnreadable path)
    | .text s =>
      ((Json.parse? s).bind Snapshot.ofJson?).elim (.error (.stateMalformed path))
        (.ok <| .ofSnapshot 0 ·)

/-- The time at which the invocation acts. -/
def time (i : Invocation) (around : Surroundings) : Except Failure Time :=
  match i.date with
  | none => .ok around.now
  | some date => (around.noon date).elim (.error (.noNoon date)) .ok

/-- The ledger along with the roll numbers in the file of a dry run. -/
def withExisting (i : Invocation) (d : Desk) (l : Ledger) (files : String → Reading) :
    Except Failure Ledger :=
  match i.command with
  | .dryRun _ (some path) =>
    match files path with
    | .text s => .ok (l.extendRecords d.settings.roll.field (Blank.lines s.toList))
    | _ => .error (.existingUnreadable path)
  | _ => .ok l

/-! ## Service -/

/-- The ledger after a command was answered: identifiers that it issued are on record. -/
def record (i : Invocation) (d : Desk) (r : Response) (l : Ledger) : Ledger :=
  if i.command.Issues then l.extendRecords (d.settings.series i.command.kind).field r.issued else l

/-- Serves the request on a ledger. -/
def serve (i : Invocation) (d : Desk) (l : Ledger) (now : Time) (around : Surroundings) :
    Except Failure (Response × Ledger) :=
  let world : World :=
    { ledger := l
      clock := fun _ => now
      stopAfter := if around.stopped then some 0 else none
      words := around.words }
  match (d.serve i.command.request).run world with
  | (.finished (.ok r), w) => .ok (r, i.record d r w.ledger)
  | (.finished (.error e), _) => .error (.request e)
  | (.hung, _) => .error .unanswered

/-- What an invocation prints, and the state that it leaves at a path. -/
structure Visit where
  output : Json
  saved : Option (String × Snapshot)

/-- What an invocation prints and the state it leaves. -/
def visit (i : Invocation) (around : Surroundings) : Except Failure Visit := do
  let d ← i.desk around.files
  let l ← i.ledger around.files
  let now ← i.time around
  let l ← i.withExisting d l around.files
  let (r, l) ← i.serve d l now around
  return ⟨i.command.output r,
    if i.command.Mutates then i.state.map (·, l.snapshot) else none⟩

end Invocation

/-- The text of a state file. -/
def stateText (s : Snapshot) : String := s.toJson.pretty

end Docket.CommandLine
