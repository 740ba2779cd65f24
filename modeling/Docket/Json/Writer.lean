import Docket.Json.Basic
import Docket.Text.Decimal

/-!
# Writing JSON

* `Json.quoted`: a string in quotes; quotes, backslashes and control characters are escaped, all
  else is written as it is;
* `Json.compact`: a value without blanks;
* `Json.pretty`: a value over several lines, indented by two blanks a level.
-/

namespace Docket.Json

/-- A hexadecimal digit in lower case. -/
def hexDigit (n : Nat) : Char := Nat.digitChar n

/-- A character inside a string literal. -/
def escape (c : Char) : List Char :=
  if c = '"' then ['\\', '"']
  else if c = '\\' then ['\\', '\\']
  else if 0x20 ≤ c.toNat then [c]
  else if c = '\x08' then ['\\', 'b']
  else if c = '\t' then ['\\', 't']
  else if c = '\n' then ['\\', 'n']
  else if c = '\x0c' then ['\\', 'f']
  else if c = '\r' then ['\\', 'r']
  else ['\\', 'u', '0', '0', hexDigit (c.toNat / 16), hexDigit (c.toNat % 16)]

/-- A string literal. -/
def quoted (s : String) : List Char := '"' :: (s.toList.flatMap escape ++ ['"'])

mutual

/-- A value without blanks. -/
def compactChars : Json → List Char
  | .null => ['n', 'u', 'l', 'l']
  | .bool true => ['t', 'r', 'u', 'e']
  | .bool false => ['f', 'a', 'l', 's', 'e']
  | .nat n => Decimal.digits n
  | .number text => text.toList
  | .str s => quoted s
  | .unpaired => ['"', '"']
  | .arr [] => ['[', ']']
  | .arr (item :: items) => '[' :: (compactChars item ++ compactItems items)
  | .obj [] => ['{', '}']
  | .obj ((name, value) :: members) =>
    '{' :: (quoted name ++ ':' :: (compactChars value ++ compactMembers members))

/-- The items of an array after the first, and its closing bracket. -/
def compactItems : List Json → List Char
  | [] => [']']
  | item :: items => ',' :: (compactChars item ++ compactItems items)

/-- The members of an object after the first, and its closing brace. -/
def compactMembers : List (String × Json) → List Char
  | [] => ['}']
  | (name, value) :: members =>
    ',' :: (quoted name ++ ':' :: (compactChars value ++ compactMembers members))

end

/-- A value without blanks. -/
def compact (j : Json) : String := String.ofList j.compactChars

/-- The start of a line at a depth. -/
def newline (depth : Nat) : List Char := '\n' :: List.replicate (2 * depth) ' '

mutual

/-- A value over several lines, whose first line starts at some depth. -/
def prettyChars (depth : Nat) : Json → List Char
  | .null => ['n', 'u', 'l', 'l']
  | .bool true => ['t', 'r', 'u', 'e']
  | .bool false => ['f', 'a', 'l', 's', 'e']
  | .nat n => Decimal.digits n
  | .number text => text.toList
  | .str s => quoted s
  | .unpaired => ['"', '"']
  | .arr [] => ['[', ']']
  | .arr (item :: items) =>
    '[' :: (newline (depth + 1) ++ (prettyChars (depth + 1) item ++ prettyItems depth items))
  | .obj [] => ['{', '}']
  | .obj ((name, value) :: members) =>
    '{' :: (newline (depth + 1) ++ (quoted name ++ ':' :: ' ' ::
      (prettyChars (depth + 1) value ++ prettyMembers depth members)))

/-- The items of an array at a depth after the first, and its closing bracket. -/
def prettyItems (depth : Nat) : List Json → List Char
  | [] => newline depth ++ [']']
  | item :: items =>
    ',' :: (newline (depth + 1) ++ (prettyChars (depth + 1) item ++ prettyItems depth items))

/-- The members of an object at a depth after the first, and its closing brace. -/
def prettyMembers (depth : Nat) : List (String × Json) → List Char
  | [] => newline depth ++ ['}']
  | (name, value) :: members =>
    ',' :: (newline (depth + 1) ++ (quoted name ++ ':' :: ' ' ::
      (prettyChars (depth + 1) value ++ prettyMembers depth members)))

end

/-- A value over several lines. -/
def pretty (j : Json) : String := String.ofList (prettyChars 0 j)

end Docket.Json
