import Docket.Text.Alphanumeric
import Docket.Text.Blank

/-!
# Files of environment variables

A file gives variables line by line: a name, `=` and a value, perhaps behind `export`. Lines that
are blank or start with `#` give none. Quoted values may run over several lines; outside quotes, `#`
behind a blank starts a comment.

* `EnvFile.Place`, `EnvFile.lines`: where a character stands, and the lines of a file;
* `EnvFile.Mode`, `EnvFile.value?`: the value of a line, in which `$name` and `$` with a name in
  braces stand for variables;
* `EnvFile.entry?`: what a line gives;
* **`EnvFile.load`**: variables along with those of a file. A variable that is set stays as it is,
  and reading ends at the first line that makes no sense.
-/

namespace Docket.CommandLine.EnvFile

/-! ## Lines -/

/-- Where a character stands in a line. -/
inductive Place where
  | plain
  /-- Just behind a blank. -/
  | gap
  | escape
  | double
  | doubleEscape
  | single
  | singleEscape
  | comment
deriving DecidableEq, Repr

/-- The place behind a character. -/
def Place.next : Place → Char → Place
  | .plain, c =>
    if isBlank c && c != '\n' && c != '\r' then .gap
    else if c = '\\' then .escape
    else if c = '"' then .double
    else if c = '\'' then .single
    else .plain
  | .gap, c =>
    if c = '#' then .comment
    else if c = '\\' then .escape
    else if c = '"' then .double
    else if c = '\'' then .single
    else .plain
  | .escape, _ => .plain
  | .double, c => if c = '\\' then .doubleEscape else if c = '"' then .plain else .double
  | .doubleEscape, _ => .double
  | .single, c => if c = '\\' then .singleEscape else if c = '\'' then .plain else .single
  | .singleEscape, _ => .single
  | .comment, c => if c = '\n' then .plain else .comment

/-- The place behind a character of a line that has held nothing but blanks so far, or more. -/
def Place.behind (fresh : Bool) (p : Place) (c : Char) : Place :=
  if fresh && c == '#' then .comment else p.next c

/-- The lines of a file, without comments, up to one that does not end. `line` is what there is of
the first line so far, backwards, and `fresh` whether that is blank. -/
def linesFrom (fresh : Bool) (p : Place) (line : List Char) : List Char → List (List Char)
  | [] => if p = .plain ∨ p = .comment then [line.reverse] else []
  | c :: cs =>
    let q := p.behind fresh c
    if c = '\n' ∧ q = .plain then line.reverse :: linesFrom true .plain [] cs
    else if q = .comment then linesFrom false q line cs
    else linesFrom (fresh && isBlank c) q (c :: line) cs

/-- The lines of a file, without comments, up to one that does not end. -/
def lines (text : String) : List (List Char) := linesFrom true .plain [] text.toList

/-! ## Values -/

/-- How a character of a value is read. -/
inductive Mode where
  | plain
  | escaped
  | single
  /-- In the name of a variable, which is held backwards. -/
  | name (n : List Char)
  /-- In a name in braces. -/
  | braced (n : List Char)
  /-- Behind the value. -/
  | behind
deriving DecidableEq, Repr

/-- The character that a letter behind `\` stands for. -/
def unescape? (c : Char) : Option Char :=
  if ['\\', '\'', '"', '$', ' '].contains c then some c
  else if c = 'n' then some '\n'
  else none

/-- A value, in which `lookup` tells what variables stand for. -/
def value? (lookup : List Char → List Char) (double : Bool) :
    Mode → List Char → Option (List Char)
  | .single, [] | .braced _, [] => none
  | .name n, [] => if double then none else some (lookup n.reverse)
  | _, [] => if double then none else some []
  | .behind, c :: cs =>
    if c = ' ' ∨ c = '\t' then value? lookup double .behind cs
    else if c = '#' then some []
    else none
  | .escaped, c :: cs => do return (← unescape? c) :: (← value? lookup double .plain cs)
  | .single, c :: cs =>
    if c = '\'' then value? lookup double .plain cs
    else (value? lookup double .single cs).map (c :: ·)
  | .name n, c :: cs =>
    if isAlphanumeric c then value? lookup double (.name (c :: n)) cs
    else if c = '{' ∧ n = [] then value? lookup double (.braced []) cs
    else if c = '$' then (value? lookup double (.name []) cs).map (lookup n.reverse ++ ·)
    else (value? lookup double .plain cs).map (lookup n.reverse ++ c :: ·)
  | .braced n, c :: cs =>
    if c = '}' then (value? lookup double .plain cs).map (lookup n.reverse ++ ·)
    else value? lookup double (.braced (c :: n)) cs
  | .plain, c :: cs =>
    if c = '$' then value? lookup double (.name []) cs
    else if c = '\\' then value? lookup double .escaped cs
    else if c = '"' then value? lookup (!double) .plain cs
    else if double then (value? lookup double .plain cs).map (c :: ·)
    else if c = '\'' then value? lookup double .single cs
    else if c = ' ' ∨ c = '\t' then value? lookup double .behind cs
    else (value? lookup double .plain cs).map (c :: ·)

/-! ## Entries -/

/-- Variables with their values. -/
abbrev Variables := List (String × String)

/-- A name in front of a text: a letter or `_`, then also digits and points. -/
def name? (cs : List Char) : Option (List Char × List Char) :=
  if cs.head?.any fun c => c.isAlpha || c == '_' then
    let inName (c : Char) : Bool := c.isAlphanum || c == '_' || c == '.'
    some (cs.takeWhile inName, cs.dropWhile inName)
  else none

/-- What stands behind `=` and blanks. -/
def afterEquals? (cs : List Char) : Option (List Char) :=
  match Blank.skip cs with
  | '=' :: r => some (Blank.skip r)
  | _ => none

/-- The name in a line and what stands behind `=`. The name may be `export`. -/
def assigned? (line : List Char) : Option (List Char × List Char) := do
  let (name, r) ← name? line
  match afterEquals? r with
  | some value => some (name, value)
  | none =>
    if name = "export".toList then
      let (name, r) ← name? (Blank.skip r)
      return (name, ← afterEquals? r)
    else none

/-- What a line gives: perhaps nothing, and `none` if it makes no sense. -/
def entry? (vars : Variables) (line : List Char) : Option Variables :=
  let line := Blank.trim line
  if line.isEmpty || line.head? == some '#' then some []
  else do
    let (name, value) ← assigned? line
    let lookup (n : List Char) : List Char := ((vars.lookup (String.ofList n)).getD "").toList
    let value ← if value.head? == some '#' then some [] else value? lookup false .plain value
    return [(String.ofList name, String.ofList value)]

/-- Adds a variable unless it is set. -/
def add (vars : Variables) (entry : String × String) : Variables :=
  if (vars.lookup entry.1).isSome then vars else vars ++ [entry]

/-- Adds what lines give, up to one that makes no sense. -/
def addLines (vars : Variables) : List (List Char) → Variables
  | [] => vars
  | line :: rest =>
    match entry? vars line with
    | some entries => addLines (entries.foldl add vars) rest
    | none => vars

/-- The variables along with those of a file, which may start with a byte order mark. -/
def load (vars : Variables) (text : String) : Variables :=
  addLines vars (linesFrom true .plain [] (match text.toList with
    | '\ufeff' :: r => r
    | r => r))

/-- The names that a file may mention. -/
def names (text : String) : List String :=
  ((text.toList.splitOnP fun c => !(isAlphanumeric c || c == '_' || c == '.')).filter
    (!·.isEmpty)).map String.ofList

example : load [("A", "1")] "A=2\nexport B = \"$A x\" # c\nC='\n' \nD=x y\nE=1" =
    [("A", "1"), ("B", "1 x"), ("C", "\n")] := by decide +kernel

end Docket.CommandLine.EnvFile
