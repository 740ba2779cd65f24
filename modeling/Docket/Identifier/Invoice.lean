import Docket.Identifier.Segment

/-!
# Monthly invoice IDs

An invoice ID is a tag, a prefix, a padded sequence and perhaps a suffix: `INV-K72503-007-A7B`.

* `InvoiceId.text`: the segments as they are;
* `InvoiceId.format`: the same, after checking that they can be read back;
* `InvoiceId.parse`: reads one; the width it was padded to is how many digits it has.
-/

namespace Docket

/-- The parts of an invoice ID. -/
structure InvoiceId where
  lead : String
  sequence : UInt64
  width : Nat
  suffix : String
deriving DecidableEq, Repr

namespace InvoiceId

/-- The first segment. -/
def tag : String := "INV"

/-- The parts with `-` between them; an empty suffix has no segment. -/
def text (i : InvoiceId) : String :=
  tag ++ "-" ++ i.lead ++ "-" ++ Segment.padded i.width i.sequence ++
    if i.suffix.isEmpty then "" else "-" ++ i.suffix

/-- The text of an invoice ID whose parts can be told apart. -/
def format (i : InvoiceId) : Except Error String := do
  Segment.checkPadding i.width
  Segment.check "invoice prefix" i.lead
  if i.suffix.contains '-' then throw (.invalid (.dashInSuffix i.suffix))
  Segment.checkWidth i.sequence i.width
  return i.text

/-- The parts in a prefix, a sequence and a suffix. -/
def ofSegments? (lead sequence suffix : List Char) : Option InvoiceId :=
  if lead.isEmpty || Segment.maxPadding < sequence.length then none
  else (Segment.readSequence? sequence).map fun n =>
    ⟨String.ofList lead, n, sequence.length, String.ofList suffix⟩

/-- The parts of a text that is an invoice ID. -/
def parse? (s : String) : Option InvoiceId :=
  match Segment.split s with
  | [t, lead, sequence] => if t = tag.toList then ofSegments? lead sequence [] else none
  | [t, lead, sequence, suffix] => if t = tag.toList then ofSegments? lead sequence suffix else none
  | _ => none

/-- Reads an invoice ID. -/
def parse (s : String) : Except Error InvoiceId :=
  (parse? s).elim (.error (.invalid (.notAnInvoiceId s))) .ok

end InvoiceId

end Docket
