import Docket.Error

/-!
# Segments of an identifier

Identifiers are segments with `-` between them.

* `Segment.split`: the segments of a text;
* `Segment.check`: a segment must hold something, but no `-`;
* `Segment.checkPadding`, `Segment.checkWidth`: a sequence is padded to between 1 and 20 digits, and
  must fit into them.
-/

namespace Docket.Segment

/-- The segments of a text. -/
def split (s : String) : List (List Char) := s.toList.splitOn '-'

/-- Refuses a segment that is empty or would fall apart. -/
def check (name value : String) : Except Error Unit :=
  if value.isEmpty then .error (.invalid (.emptySegment name))
  else if value.contains '-' then .error (.invalid (.dashInSegment name value))
  else .ok ()

/-- The most digits a sequence is padded to. -/
def maxPadding : Nat := 20

/-- Refuses a width that no sequence is padded to. -/
def checkPadding (width : Nat) : Except Error Unit :=
  if width = 0 ∨ maxPadding < width then .error (.invalid (.paddingWidth width)) else .ok ()

/-- Refuses a sequence with more digits than it is padded to. -/
def checkWidth (sequence : UInt64) (width : Nat) : Except Error Unit :=
  if width < Decimal.width sequence.toNat then .error (.invalid (.tooWide sequence.toNat width))
  else .ok ()

/-- The width a sequence is padded to where it may outgrow `width`. -/
def widened (sequence : UInt64) (width : Nat) : Nat := max width (Decimal.width sequence.toNat)

/-- A sequence behind leading zeros. -/
def padded (width : Nat) (sequence : UInt64) : String :=
  String.ofList (Decimal.padded width sequence.toNat)

/-- A 64-bit sequence, written with ASCII digits. -/
def readSequence? (cs : List Char) : Option UInt64 := do
  let n ← Decimal.read? cs
  if n < UInt64.size then some (UInt64.ofNat n) else none

end Docket.Segment
