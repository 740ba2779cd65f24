import Docket.Desk
import Docket.Ledger.Snapshot
import Docket.Run.Alone
import Docket.Run.Crew

/-!
# Sessions

A session carries out steps on one ledger, one clock and one script of faults. Some steps use the
series directly, some a desk; transactions of the steps have names.

* `Session`, `Step`, `Result`: the session, what it can be told to do, and what comes of it;
* `Session.exec`: something runs in the session's world for a day at most; afterwards, open
  transactions without a name are dropped;
* **`Session.step`**, `Session.close`: a step, and the end of the session.
-/

namespace Docket.Scenario

/-- A stream of random words, and how many of them have been drawn. -/
structure Words where
  stream : Nat → UInt64 := fun _ => 0
  drawn : Nat := 0

/-- A ledger with a clock, a script of faults and settings, and two separate orders to stop. -/
structure Session where
  ledger : Ledger
  clock : Time
  settings : Settings := {}
  faults : Method → List Fault := fun _ => []
  /-- The random words of the series used directly. -/
  words : Words := {}
  /-- The random words of the desk. -/
  deskWords : Words := {}
  stopped : Bool := false
  deskStopped : Bool := false
  /-- Whether a pause takes no time and only lets others go first. -/
  restless : Bool := false
  manner : Manner := {}
  names : List (String × Tx) := []

/-- What a session can be told to do. -/
inductive Step where
  | issueOne (kind : CounterKind)
  | issueBatch (kind : CounterKind) (count : Nat)
  | issueIn (kind : CounterKind) (tx : String)
  | allocate (kind : CounterKind) (tx : String)
  /-- Several issues at the same time. -/
  | together (kind : CounterKind) (count : Nat)
  | describe (kind : CounterKind)
  | start (tx : String)
  | finish (tx : String) (how : Ending)
  | drop (tx : String)
  | set (tx key : String) (sequence : UInt64) (mark : Mark)
  | recorded (tx field value : String)
  | findCollisions (field : Option String) (ids : List String)
  | preview (count : Nat)
  | dryRun (count : Nat)
  | insertRecord (field value : String)
  | counter (key : String)
  | setClock (now : Time)
  | stop
  | desk (request : Request)
  | stopDesk
  | describeDesk

/-- What comes of a step. -/
inductive Result where
  | done
  | error (e : Error)
  /-- The step did not end within a day. -/
  | blocked
  /-- The step names a transaction that is not open. -/
  | unknownTx
  | response (r : Response)
  | issues (rs : List (Except Error String))
  | allocation (a : Allocation)
  | counter (c : Option Counter)
  | flag (b : Bool)
  | recorded (field : String) (b : Bool)
  | series (field key : String) (retry : RetrySettings) (stopped : Bool)
  | desk (stopped : Bool) (keys : List String) (settings : Settings)

namespace Session

/-- How long a step may take. -/
def patience : Nat := 86400 * Span.perSecond

/-- The world of the next step, with one of the two orders to stop and streams of words. -/
def world (s : Session) (desk : Bool) : World where
  ledger := s.ledger
  faults := s.faults
  clock := fun _ => s.clock
  stopAfter := if (if desk then s.deskStopped else s.stopped) then some 0 else none
  words := (if desk then s.deskWords else s.words).stream
  drawn := (if desk then s.deskWords else s.words).drawn
  horizon := some patience
  restless := s.restless

/-- A ledger without the open transactions that have no name. -/
def dropUnnamed (names : List (String × Tx)) (l : Ledger) : Ledger :=
  (l.active.filter fun n => !names.any (·.2.serial == n)).foldl
    (fun l n => l.finish ⟨l.name, n⟩ .abort) l

/-- The session after its world has become `w`. -/
def leave (s : Session) (desk : Bool) (w : World) : Session :=
  let s := { s with ledger := w.ledger, faults := w.faults }
  if desk then { s with deskWords := { s.deskWords with drawn := w.drawn } }
  else { s with words := { s.words with drawn := w.drawn } }

/-- The session without the open transactions that have no name. -/
def tidy (s : Session) : Session := { s with ledger := dropUnnamed s.names s.ledger }

/-- Runs something in the session's world. The result comes with the calls it made. -/
def exec {α : Type} (s : Session) (desk : Bool) (act : World → α × World) :
    α × List Call × Session :=
  let (a, w) := act (s.world desk)
  (a, w.log.reverse, s.leave desk w)

/-- The transaction with a name. -/
def tx? (s : Session) (name : String) : Option Tx := s.names.lookup name

/-- The session without a name. -/
def forget (s : Session) (name : String) : Session :=
  { s with names := s.names.filter (·.1 != name) }

/-- The session with a name for a transaction. -/
def remember (s : Session) (name : String) (t : Tx) : Session :=
  { s.forget name with names := (name, t) :: (s.forget name).names }

/-- The result of a plan that ends in a response or an error. -/
def ofRun {α : Type} (f : α → Result) : Run (Except Error α) → Result
  | .finished (.ok a) => f a
  | .finished (.error e) => .error e
  | .hung => .blocked

/-- The result of a call. -/
def ofReply {α : Type} (f : α → Result) : Reply α → Result
  | .answer (.ok a) => f a
  | .answer (.error e) => .error (.ledger e)
  | .waits | .never => .blocked

/-- Carries out a plan. -/
def runPlan {α : Type} (s : Session) (desk : Bool) (f : α → Result) (p : Plan (Except Error α)) :
    Result × List Call × Session :=
  let (r, log, s) := s.exec desk p.run
  (ofRun f r, log, s)

/-- Issues at the same time. -/
def together (s : Session) (kind : CounterKind) (count : Nat) : Result × List Call × Session :=
  let r := s.settings.retry
  let plans := List.replicate count ((s.settings.series kind).issueOne r)
  let (values, log, s) := s.exec false (Crew.run s.manner (Crew.enough count r.maxAttempts) plans)
  (values.elim .blocked .issues, log, s)

/-- Serves a request at the desk, if there is one. -/
def atDesk (s : Session) (request : Request) : Result × List Call × Session :=
  match Desk.ofSettings s.settings with
  | .error e => (.error e, [], s)
  | .ok d => s.runPlan true .response (d.serve request)

/-- Does something with a named transaction, if it is open. -/
def withTx (s : Session) (name : String) (act : Tx → Result × List Call × Session) :
    Result × List Call × Session :=
  match s.tx? name with
  | some t => act t
  | none => (.unknownTx, [], s)

/-- What a step comes to, before open transactions without a name are dropped. -/
def act (s : Session) : Step → Result × List Call × Session
  | .issueOne kind =>
    s.runPlan false (.response ∘ .id) ((s.settings.series kind).issueOne s.settings.retry)
  | .issueBatch kind count =>
    s.runPlan false (.response ∘ .ids) ((s.settings.series kind).issueBatch s.settings.retry count)
  | .issueIn kind tx => s.withTx tx fun t =>
    s.runPlan false (.response ∘ .id) ((s.settings.series kind).issueIn s.settings.retry t)
  | .allocate kind tx => s.withTx tx fun t =>
    let (r, log, s) := s.exec false ((s.settings.series kind).allocate s.clock |>.run t)
    (match r with
      | .finished (.ok a) => .allocation a
      | .finished (.error e) => .error e
      | .stuck => .blocked, log, s)
  | .together kind count => s.together kind count
  | .describe kind =>
    let series := s.settings.series kind
    (.series series.field (series.key s.clock) s.settings.retry s.stopped, [], s)
  | .start tx =>
    let (r, log, s) := s.exec false World.start
    match r with
    | .answer (.ok t) => (.done, log, s.remember tx t)
    | r => (ofReply (fun _ => .done) r, log, s)
  | .finish tx how => s.withTx tx fun t =>
    let (r, log, s) := (s.forget tx).exec false (·.finish t how)
    (ofReply (fun _ => .done) r, log, s)
  | .drop tx => s.withTx tx fun _ => (.done, [], s.forget tx)
  | .set tx key sequence mark => s.withTx tx fun t =>
    let (r, log, s) := s.exec false (·.touch t (.set key sequence mark s.clock))
    (ofReply (.counter ∘ some) r, log, s)
  | .recorded tx field value => s.withTx tx fun t =>
    let (r, log, s) := s.exec false (·.touch t (.recorded field value))
    (ofReply (.recorded field) r, log, s)
  | .findCollisions field ids =>
    s.runPlan false (.response ∘ .ids)
      (Forecast.findCollisions (field.getD s.settings.roll.field) ids)
  | .preview count =>
    s.runPlan false (.response ∘ .entries) (Forecast.preview s.settings.roll count)
  | .dryRun count =>
    s.runPlan false (.response ∘ .report) (Forecast.dryRun s.settings.roll count)
  | .insertRecord field value =>
    let (new, ledger) := s.ledger.insertRecord field value
    (.flag new, [], { s with ledger })
  | .counter key => (.counter s.ledger.counters[key]?, [], s)
  | .setClock now => (.done, [], { s with clock := now })
  | .stop => (.done, [], { s with stopped := true })
  | .desk request => s.atDesk request
  | .stopDesk =>
    match Desk.ofSettings s.settings with
    | .error e => (.error e, [], s)
    | .ok _ => (.done, [], { s with deskStopped := true })
  | .describeDesk =>
    match Desk.ofSettings s.settings with
    | .error e => (.error e, [], s)
    | .ok d =>
      let keys := CounterKind.all.map fun kind => (d.settings.series kind).key s.clock
      (.desk s.deskStopped keys d.settings, [], s)

/-- A step: what comes of it, the calls it made, and the session after it. -/
def step (s : Session) (step : Step) : Result × List Call × Session :=
  let (r, log, s) := s.act step
  (r, log, s.tidy)

/-- The session after all its transactions are dropped. -/
def close (s : Session) : Session := ({ s with names := [] }).tidy

end Session

end Docket.Scenario
