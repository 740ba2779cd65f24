import Docket.Forecast
import Docket.Issue.Generate

/-!
# The desk

A desk serves requests for all three series under settings that have been checked.

* `CounterKind`, `CounterKind.name`: the kinds of counters and their names;
* `Desk`, `Desk.ofSettings`: a desk and the settings it works under;
* `Request`, `Response`, **`Desk.serve`**: what a desk can be asked for, and the plan that serves
  it.
-/

namespace Docket

/-- The kinds of counters. -/
inductive CounterKind where
  | rollNumber
  | invoice
  | dailyInvoice
deriving DecidableEq, Repr

namespace CounterKind

/-- All kinds. -/
def all : List CounterKind := [.rollNumber, .invoice, .dailyInvoice]

/-- The kind's name. -/
def name : CounterKind → String
  | .rollNumber => "roll-number"
  | .invoice => "invoice"
  | .dailyInvoice => "daily-invoice"

/-- The kind with a name. -/
def ofName? (s : String) : Option CounterKind := all.find? (·.name == s)

end CounterKind

namespace Settings

/-- The series of a kind of counter. -/
def series (s : Settings) : CounterKind → Series
  | .rollNumber => .roll s.roll
  | .invoice => .invoice s.invoice
  | .dailyInvoice => .daily s.daily

end Settings

/-- A desk with settings that have been checked. -/
structure Desk where
  settings : Settings
  valid : settings.validate = .ok ()

/-- What a desk can be asked for. -/
inductive Request where
  | issue (kind : CounterKind)
  | reserve (count : Nat)
  | invoices (count : Nat)
  | preview (count : Nat)
  | dryRun (count : Nat)
  /-- Deletes the counter of a kind for the current period. -/
  | reset (kind : CounterKind)
deriving DecidableEq, Repr

/-- What a desk answers. -/
inductive Response where
  | id (id : String)
  | ids (ids : List String)
  | entries (entries : List Forecast.Entry)
  | report (report : Forecast.Report)
  | removed (removed : Bool)
deriving DecidableEq, Repr

/-- The identifiers in a response. -/
def Response.issued : Response → List String
  | .id i => [i]
  | .ids is => is
  | _ => []

namespace Desk

/-- A desk with these settings, if they can be used. -/
def ofSettings (s : Settings) : Except Error Desk :=
  match h : s.validate with
  | .ok () => .ok ⟨s, h⟩
  | .error e => .error e

/-- The plan that serves a request. -/
def serve (d : Desk) : Request → Plan (Except Error Response)
  | .issue kind =>
    ((d.settings.series kind).issueOne d.settings.retry).bind fun r => .done (r.map .id)
  | .reserve count =>
    ((Series.roll d.settings.roll).issueBatch d.settings.retry count).bind fun r =>
      .done (r.map .ids)
  | .invoices count =>
    if count = 0 then .done (.error (.invalid .emptyInvoiceBatch))
    else ((Series.invoice d.settings.invoice).issueBatch d.settings.retry count).bind fun r =>
      .done (r.map .ids)
  | .preview count =>
    (Forecast.preview d.settings.roll count).bind fun r => .done (r.map .entries)
  | .dryRun count =>
    (Forecast.dryRun d.settings.roll count).bind fun r => .done (r.map .report)
  | .reset kind => .now fun now =>
    .query (.remove ((d.settings.series kind).key now)) fun r =>
      .done ((r.mapError .ledger).map .removed)

end Desk

end Docket
