import Docket.Identifier.Checked
import Docket.Identifier.Invoice
import Docket.Identifier.Roll
import Docket.Identifier.Suffix
import Docket.Counter
import Docket.Settings

/-!
# The three series

A series says which counter its identifiers come from, when that counter starts over, and how an
allocation is written.

* `Series`, `Series.field`, `Series.rotation`: a series with its settings, the field that holds its
  identifiers, and its rotation;
* `Series.key`: the counter at a time: the date for roll numbers, a fixed name for invoices, and a
  name with the date at offset zero for daily invoices;
* `Series.seed`, `Series.format`: a new counter's mark, and an allocation's identifier, each from as
  many random words as `Series.seedWords` and `Series.formatWords` say.
-/

namespace Docket

/-- When a counter starts over. -/
inductive Rotation where
  /-- Past a sequence: the digit advances and the sequence is 1 again. -/
  | overflow (maxSequence : UInt64)
  /-- In a new calendar month. -/
  | calendar
  | fixed
deriving DecidableEq, Repr

/-- A sequence handed out under a key, with the mark it came with. -/
structure Allocation where
  key : String
  sequence : UInt64
  mark : Mark
  rotated : Bool
deriving DecidableEq, Repr

/-- A series of identifiers. -/
inductive Series where
  | roll (s : RollSettings)
  | invoice (s : InvoiceSettings)
  | daily (s : DailySettings)
deriving DecidableEq, Repr

namespace Series

/-- The field that holds the series' identifiers. -/
def field : Series → String
  | .roll s => s.field
  | .invoice s => s.field
  | .daily s => s.field

/-- When the series' counters start over. -/
def rotation : Series → Rotation
  | .roll s => .overflow s.maxSequence
  | .invoice _ => .calendar
  | .daily _ => .fixed

/-- What comes before the date in the keys of daily invoices. -/
def dailyStart (s : DailySettings) : String := s.family ++ ":"

/-- The counter at a time. -/
def key (s : Series) (now : Time) : String :=
  match s with
  | .roll _ => now.date.dayKey
  | .invoice s => s.counterName
  | .daily s => dailyStart s ++ now.utcDate.dayKey

/-- The random letters in front of an invoice prefix. -/
def leadLetters : Nat := 2

/-- How many random words a new counter's mark takes. -/
def seedWords : Series → Nat
  | .invoice _ => leadLetters
  | _ => 0

/-- An invoice prefix: letters and the month. -/
def invoiceLead (date : Date) (letters : String) : String := letters ++ date.monthKey

/-- The mark of a new counter. -/
def seed (s : Series) (now : Time) (words : List UInt64) : Mark :=
  match s with
  | .roll _ => .digit 0
  | .invoice _ => .lead (invoiceLead now.date (Suffix.confusableFree words))
  | .daily _ => .plain

/-- The date in the key of a daily counter. -/
def dailyDate? (s : DailySettings) (key : String) : Option String :=
  let start := (dailyStart s).toList
  if start.isPrefixOf key.toList then some (String.ofList (key.toList.drop start.length)) else none

/-- How many random words an allocation's identifier takes. -/
def formatWords (s : Series) (a : Allocation) : Nat :=
  match s with
  | .invoice s => if a.mark.lead?.isSome then s.randomChars else 0
  | _ => 0

/-- The identifier of an allocation. -/
def format (s : Series) (a : Allocation) (words : List UInt64) : Except Error String :=
  match s with
  | .roll _ =>
    match a.mark.digit? with
    | some d => RollNumber.format ⟨a.key, d, a.sequence⟩
    | none => .error (.invalid (.noDigit a.key))
  | .invoice s =>
    match a.mark.lead? with
    | some lead =>
      InvoiceId.format
        ⟨lead, a.sequence, Segment.widened a.sequence s.paddingWidth, Suffix.confusableFree words⟩
    | none => .error (.invalid (.noPrefix a.key))
  | .daily s =>
    match dailyDate? s a.key with
    | some date => Checked.format date a.sequence (Segment.widened a.sequence s.paddingWidth)
    | none => .error (.invalid (.otherCounter a.key s.family))

end Series

end Docket
