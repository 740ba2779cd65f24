import Docket.Identifier.Segment

/-!
# Daily invoice IDs with a check character

A daily invoice ID is a date key, a padded sequence and a check character: `2503140001G`.

* `Checked.value?`: the value of a base-36 digit, in either case;
* `Checked.character`: the base-36 digit, in upper case, of the sum of a text's digits;
* `Checked.format`: a date key and a sequence with their check character;
* `Checked.verify`: whether the last character is the check character of the others.
-/

namespace Docket.Checked

/-- The number of base-36 digits. -/
def radix : Nat := 36

/-- The value of a base-36 digit. -/
def value? (c : Char) : Option Nat :=
  if c.isDigit then some (c.toNat - '0'.toNat)
  else if c.isUpper then some (c.toNat - 'A'.toNat + 10)
  else if c.isLower then some (c.toNat - 'a'.toNat + 10)
  else none

/-- The base-36 digit of a value under 36. -/
def digit (value : Nat) : Char :=
  if value < 10 then Char.ofNat ('0'.toNat + value) else Char.ofNat ('A'.toNat + (value - 10))

/-- The running sum of digits, or the first character that is none. -/
def sum (start : Nat) : List Char → Except Char Nat
  | [] => .ok start
  | c :: cs =>
    match value? c with
    | some v => sum ((start + v) % radix) cs
    | none => .error c

/-- The check character of a text. -/
def character (body : String) : Except Error Char :=
  match sum 0 body.toList with
  | .ok total => .ok (digit total)
  | .error c => .error (.invalid (.notBase36 c body))

/-- A date key and a sequence with their check character. -/
def format (dateKey : String) (sequence : UInt64) (width : Nat) : Except Error String := do
  Segment.check "date key" dateKey
  Segment.checkPadding width
  Segment.checkWidth sequence width
  let body := dateKey ++ Segment.padded width sequence
  return body.push (← character body)

/-- Whether the last character is the check character of the others, of which there is one. -/
def verify (id : String) : Bool :=
  let body := id.toList.dropLast
  !body.isEmpty && match sum 0 body with
    | .ok total => id.toList.getLast? == some (digit total)
    | .error _ => false

end Docket.Checked
