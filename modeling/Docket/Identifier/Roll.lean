import Docket.Identifier.Segment

/-!
# Roll numbers

A roll number is a period, an auxiliary digit and a two-digit sequence: `250314-3-07`.

* `RollNumber.text`: the segments as they are;
* `RollNumber.format`: the same, after checking that they can be read back;
* `RollNumber.parse`: reads one.
-/

namespace Docket

/-- The parts of a roll number. -/
structure RollNumber where
  period : String
  digit : UInt8
  sequence : UInt64
deriving DecidableEq, Repr

namespace RollNumber

/-- The number of auxiliary digits. -/
def radix : UInt8 := 10

/-- The digits of a sequence. -/
def sequenceWidth : Nat := 2

/-- The largest sequence that fits. -/
def maxSequence : UInt64 := 99

/-- The parts with `-` between them. -/
def text (r : RollNumber) : String :=
  r.period ++ "-" ++ Decimal.text r.digit.toNat ++ "-" ++ Segment.padded sequenceWidth r.sequence

/-- The text of a roll number whose parts can be told apart. -/
def format (r : RollNumber) : Except Error String := do
  Segment.check "period key" r.period
  if radix ≤ r.digit then throw (.invalid (.notADigit r.digit.toNat))
  if maxSequence < r.sequence then
    throw (.invalid (.tooWide r.sequence.toNat sequenceWidth))
  return r.text

/-- The parts of a text that is a roll number. -/
def parse? (s : String) : Option RollNumber :=
  match Segment.split s with
  | [period, [d], sequence] =>
    if period.isEmpty || !d.isDigit || sequence.length ≠ sequenceWidth then none
    else (Segment.readSequence? sequence).map fun n =>
      ⟨String.ofList period, (d.toNat - '0'.toNat).toUInt8, n⟩
  | _ => none

/-- Reads a roll number. -/
def parse (s : String) : Except Error RollNumber :=
  (parse? s).elim (.error (.invalid (.notARollNumber s))) .ok

end RollNumber

end Docket
