import Docket.Calendar.Written
import Docket.Desk

/-!
# Commands

* `Command`, `Invocation`: what the program can be told to do, and the options it is told it with;
* `Command.request`, `Command.kind`, `Command.Issues`: what a command asks of the desk, the kind of
  counter it is about, and whether identifiers come out of it;
* `Command.Mutates`: whether a command changes counters or records;
* `Command.output`: the JSON that answers it.
-/

namespace Docket.CommandLine

/-- What the program can be told to do. -/
inductive Command where
  | preview (count : Nat)
  /-- Looks for collisions also with the lines of a file. -/
  | dryRun (count : Nat) (existing : Option String)
  | roll
  | reserve (count : Nat)
  | invoice
  | invoices (count : Nat)
  | dailyInvoice
  | reset (kind : CounterKind)
deriving DecidableEq, Repr

/-- A command and the options it comes with. -/
structure Invocation where
  state : Option String := none
  config : Option String := none
  date : Option Date := none
  maxAttempts : Option Nat := none
  baseDelayMs : Option Nat := none
  attemptTimeoutMs : Option Nat := none
  command : Command
deriving DecidableEq, Repr

namespace Command

/-- What the command asks of the desk. -/
def request : Command → Request
  | .preview count => .preview count
  | .dryRun count _ => .dryRun count
  | .roll => .issue .rollNumber
  | .reserve count => .reserve count
  | .invoice => .issue .invoice
  | .invoices count => .invoices count
  | .dailyInvoice => .issue .dailyInvoice
  | .reset kind => .reset kind

/-- The kind of counter that the command is about. -/
def kind : Command → CounterKind
  | .preview _ | .dryRun .. | .roll | .reserve _ => .rollNumber
  | .invoice | .invoices _ => .invoice
  | .dailyInvoice => .dailyInvoice
  | .reset kind => kind

/-- Whether identifiers come out of the command. -/
def Issues : Command → Prop
  | .preview _ | .dryRun .. | .reset _ => False
  | _ => True

instance (c : Command) : Decidable c.Issues := by cases c <;> unfold Issues <;> infer_instance

/-- Whether the command changes counters or records. -/
def Mutates : Command → Prop
  | .preview _ | .dryRun .. => False
  | _ => True

instance (c : Command) : Decidable c.Mutates := by cases c <;> unfold Mutates <;> infer_instance

/-- How many identifiers the command names, if it names a number. -/
def count? : Command → Option Nat
  | .preview count | .dryRun count _ | .reserve count | .invoices count => some count
  | _ => none

/-- The JSON that answers the command. -/
def output (c : Command) : Response → Json
  | .id id => .obj [("id", .str id)]
  | .ids ids => .obj [("ids", .arr (ids.map .str))]
  | .entries entries => .arr (entries.map Forecast.Entry.toJson)
  | .report report => report.toJson
  | .removed removed => .obj [("counter", .str c.kind.name), ("removed", .bool removed)]

theorem mutates_of_issues {c : Command} (h : c.Issues) : c.Mutates := by
  cases c <;> simp_all [Issues, Mutates]

end Command

end Docket.CommandLine
