import Docket.Json.Basic
import Docket.Text.Decimal

/-!
# Reading JSON

* `Json.Piece`, `Json.joinPieces`: a string literal as characters and `\u` escapes, and its text,
  which it has when every surrogate escape is half of a pair;
* `Json.readString`, `Json.readNumber`, `Json.readValue`: the grammar, each returning what is left;
* `Json.parse?`: the value of a whole text, blanks around it allowed.
-/

namespace Docket.Json

/-- The blanks of JSON. -/
def isSpace (c : Char) : Bool := c == ' ' || c == '\n' || c == '\t' || c == '\r'

/-- A text without the blanks in front. -/
def skip (cs : List Char) : List Char := cs.dropWhile isSpace

/-! ## Strings -/

/-- A part of a string literal: a character, or the number in a `\u` escape. -/
inductive Piece where
  | char (c : Char)
  | unit (u : Nat)
deriving DecidableEq

/-- The value of a hexadecimal digit. -/
def hexDigit? (c : Char) : Option Nat :=
  if c.isDigit then some (c.toNat - '0'.toNat)
  else if 'a' ≤ c ∧ c ≤ 'f' then some (c.toNat - 'a'.toNat + 10)
  else if 'A' ≤ c ∧ c ≤ 'F' then some (c.toNat - 'A'.toNat + 10)
  else none

/-- The value of four hexadecimal digits. -/
def hex4? (a b c d : Char) : Option Nat := do
  return (((← hexDigit? a) * 16 + (← hexDigit? b)) * 16 + (← hexDigit? c)) * 16 + (← hexDigit? d)

/-- The character that a one-letter escape stands for. -/
def escaped? : Char → Option Char
  | '"' => some '"'
  | '\\' => some '\\'
  | '/' => some '/'
  | 'b' => some '\x08'
  | 'f' => some '\x0c'
  | 'n' => some '\n'
  | 'r' => some '\r'
  | 't' => some '\t'
  | _ => none

/-- The pieces of a string literal up to its closing quote, and what follows. -/
def readPieces : List Char → Option (List Piece × List Char)
  | [] => none
  | '"' :: r => some ([], r)
  | '\\' :: 'u' :: a :: b :: c :: d :: r => do
    let u ← hex4? a b c d
    let (ps, r) ← readPieces r
    return (.unit u :: ps, r)
  | '\\' :: e :: r => do
    let c ← escaped? e
    let (ps, r) ← readPieces r
    return (.char c :: ps, r)
  | c :: r => do
    if c.toNat < 0x20 then none
    let (ps, r) ← readPieces r
    return (.char c :: ps, r)

/-- The text that pieces spell, where each surrogate escape is half of a pair. -/
def joinPieces : List Piece → Option (List Char)
  | [] => some []
  | .char c :: r => (joinPieces r).map (c :: ·)
  | .unit u :: .unit v :: r =>
    if 0xd800 ≤ u ∧ u < 0xdc00 then
      if 0xdc00 ≤ v ∧ v < 0xe000 then
        (joinPieces r).map (Char.ofNat (0x10000 + (u - 0xd800) * 0x400 + (v - 0xdc00)) :: ·)
      else none
    else if 0xdc00 ≤ u ∧ u < 0xe000 then none
    else (joinPieces (.unit v :: r)).map (Char.ofNat u :: ·)
  | .unit u :: r =>
    if 0xd800 ≤ u ∧ u < 0xe000 then none else (joinPieces r).map (Char.ofNat u :: ·)

/-- A string behind its opening quote; the text is missing where the literal denotes none. -/
def readString (cs : List Char) : Option (Option String × List Char) :=
  (readPieces cs).map fun (ps, r) => ((joinPieces ps).map String.ofList, r)

/-! ## Numbers -/

/-- The longest run of digits in front, and what follows. -/
def digitRun (cs : List Char) : List Char × List Char :=
  (cs.takeWhile Char.isDigit, cs.dropWhile Char.isDigit)

/-- The whole part of a number: `0`, or digits that do not start with it. -/
def readWhole : List Char → Option (List Char × List Char)
  | '0' :: r => some (['0'], r)
  | c :: r => if c.isDigit then some (digitRun (c :: r)) else none
  | [] => none

/-- A fraction, if there is one. -/
def readFraction : List Char → Option (List Char × List Char)
  | '.' :: r =>
    if (digitRun r).1.isEmpty then none else some ('.' :: (digitRun r).1, (digitRun r).2)
  | r => some ([], r)

/-- An exponent, if there is one. -/
def readExponent (cs : List Char) : Option (List Char × List Char) :=
  match cs with
  | [] => some ([], [])
  | e :: r =>
    if e = 'e' ∨ e = 'E' then
      let (sign, r) := match r with
        | s :: r' => if s = '+' ∨ s = '-' then ([s], r') else ([], r)
        | [] => ([], [])
      if (digitRun r).1.isEmpty then none else some (e :: sign ++ (digitRun r).1, (digitRun r).2)
    else some ([], cs)

/-- A number. -/
def readNumber (cs : List Char) : Option (Json × List Char) := do
  let (sign, r) := match cs with
    | '-' :: r => (['-'], r)
    | _ => ([], cs)
  let (whole, r) ← readWhole r
  let (fraction, r) ← readFraction r
  let (exponent, r) ← readExponent r
  if sign.isEmpty && fraction.isEmpty && exponent.isEmpty then
    return (.nat (Nat.ofDigitChars 10 whole 0), r)
  else return (.number (String.ofList (sign ++ whole ++ fraction ++ exponent)), r)

/-! ## Values -/

/-- The object with these members, each of whose names should denote a text. -/
def ofMembers (members : List (Option String × Json)) : Json :=
  (members.mapM fun m : Option String × Json => m.1.map (·, m.2)).elim .unpaired .obj

mutual

/-- A value without blanks in front. The number bounds the depth plus the length of every list. -/
def readValue : Nat → List Char → Option (Json × List Char)
  | 0, _ => none
  | _, [] => none
  | n + 1, c :: r =>
    match c with
    | '"' => (readString r).map fun (s, r) => (s.elim .unpaired .str, r)
    | '[' =>
      match skip r with
      | ']' :: r => some (.arr [], r)
      | r => (readItems n r).map fun (items, r) => (.arr items, r)
    | '{' =>
      match skip r with
      | '}' :: r => some (.obj [], r)
      | r => (readMembers n r).map fun (members, r) => (ofMembers members, r)
    | 'n' => match r with
      | 'u' :: 'l' :: 'l' :: r => some (.null, r)
      | _ => none
    | 't' => match r with
      | 'r' :: 'u' :: 'e' :: r => some (.bool true, r)
      | _ => none
    | 'f' => match r with
      | 'a' :: 'l' :: 's' :: 'e' :: r => some (.bool false, r)
      | _ => none
    | _ => readNumber (c :: r)

/-- The items of an array, from the first one to the closing bracket. -/
def readItems : Nat → List Char → Option (List Json × List Char)
  | 0, _ => none
  | n + 1, cs => do
    let (item, r) ← readValue n cs
    match skip r with
    | ']' :: r => return ([item], r)
    | ',' :: r =>
      let (items, r) ← readItems n (skip r)
      return (item :: items, r)
    | _ => none

/-- The members of an object, from the first name to the closing brace. -/
def readMembers : Nat → List Char → Option (List (Option String × Json) × List Char)
  | 0, _ => none
  | _, [] => none
  | n + 1, q :: r => do
    if q ≠ '"' then none
    let (name, r) ← readString r
    let ':' :: r := skip r | none
    let (value, r) ← readValue n (skip r)
    match skip r with
    | '}' :: r => return ([(name, value)], r)
    | ',' :: r =>
      let (members, r) ← readMembers n (skip r)
      return ((name, value) :: members, r)
    | _ => none

end

/-- The value of a whole text. -/
def parse? (s : String) : Option Json := do
  let cs := skip s.toList
  let (j, r) ← readValue (cs.length + 1) cs
  if (skip r).isEmpty then some j else none

end Docket.Json
