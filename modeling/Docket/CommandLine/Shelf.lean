import Docket.CommandLine.Visit

/-!
# A directory of texts

* `Shelf`, `Shelf.Directory`: texts by path, around one directory, and which directories there are;
* `Shelf.locate?`: the path behind a spelling of it, with `.` and `..`;
* `Shelf.reading`, `Shelf.place?`, `Shelf.save`: what a path leads to, and how a state takes the
  place of the old one in a single move;
* **`Shelf.visit`**: an invocation whose files are on a shelf.
-/

namespace Docket.CommandLine

open Std (ExtTreeMap)

/-- Texts by path from the root. The only directories are `home` and those above it. -/
structure Shelf where
  home : List String
  texts : ExtTreeMap String String := ∅

namespace Shelf

/-! ## Paths -/

/-- Whether there is a directory with this path. -/
def Directory (shelf : Shelf) (path : List String) : Prop := path <+: shelf.home

instance (shelf : Shelf) (path : List String) : Decidable (shelf.Directory path) := by
  unfold Directory; infer_instance

/-- The most bytes a name may take. -/
def maxName : Nat := 255

/-- The most bytes the spelling of a path may take. -/
def maxPath : Nat := 4095

/-- Whether something may be called so. -/
def IsName (name : String) : Prop := name.utf8ByteSize ≤ maxName ∧ ¬ name.contains '\x00'

instance (name : String) : Decidable (IsName name) := by unfold IsName; infer_instance

/-- One name further on from a directory. -/
def enter (path : List String) (name : String) : List String :=
  if name = "" ∨ name = "." then path
  else if name = ".." then path.dropLast
  else path ++ [name]

/-- Names followed one by one, each from a directory. -/
def follow? (shelf : Shelf) : List String → List String → Option (List String)
  | path, [] => some path
  | path, name :: rest =>
    if shelf.Directory path ∧ IsName name then shelf.follow? (enter path name) rest else none

/-- The path behind its spelling, which starts from the root or from the directory `base`. -/
def locate? (shelf : Shelf) (base : List String) (spelling : String) : Option (List String) :=
  if maxPath < spelling.utf8ByteSize then none
  else
    let start := if spelling.toList.head? = some '/' then [] else base
    shelf.follow? start ((spelling.toList.splitOn '/').map String.ofList)

/-- The key of a path. -/
def key (path : List String) : String := String.join (path.map ("/" ++ ·))

/-! ## Texts -/

/-- What a spelling leads to. -/
def reading (shelf : Shelf) (base : List String) (spelling : String) : Reading :=
  match shelf.locate? base spelling with
  | none => .absent
  | some path =>
    if shelf.Directory path then .unreadable
    else (shelf.texts[key path]?).elim .absent .text

/-- The path under which a text can be put. -/
def place? (shelf : Shelf) (base : List String) (spelling : String) : Option (List String) :=
  (shelf.locate? base spelling).filter fun path => decide (¬ shelf.Directory path)

/-- The shelf with a text under a path. -/
def put (shelf : Shelf) (path : List String) (text : String) : Shelf :=
  { shelf with texts := shelf.texts.insert (key path) text }

/-- The shelf without the text under a path. -/
def drop (shelf : Shelf) (path : List String) : Shelf :=
  { shelf with texts := shelf.texts.erase (key path) }

/-- A shelf with texts by name. -/
def ofTexts (home : List String) (texts : List (String × String)) : Shelf :=
  texts.foldl (fun shelf (name, text) => shelf.put (home ++ [name]) text) { home }

/-- The names of the texts in the shelf's directory. -/
def names (shelf : Shelf) : List String :=
  shelf.texts.keys.filterMap fun k =>
    let name := (k.toList.splitOn '/').getLastD []
    if key (shelf.home ++ [String.ofList name]) = k then some (String.ofList name) else none

/-- The text with a name in the shelf's directory. -/
def text? (shelf : Shelf) (name : String) : Option String :=
  shelf.texts[key (shelf.home ++ [name])]?

/-- Writes a state beside its path and then moves it there. -/
def save (shelf : Shelf) (base : List String) (spelling text : String) : Except Failure Shelf :=
  match shelf.place? base (stagingPath spelling) with
  | none => .error (.stateUnwritten spelling)
  | some staging =>
    match shelf.place? base spelling with
    | none => .error (.stateUnreplaced spelling)
    | some path => .ok (((shelf.put staging text).drop staging).put path text)

/-! ## Visits -/

/-- What an invocation prints, and the shelf after it. Its paths start from `base`. -/
def visit (shelf : Shelf) (base : List String) (i : Invocation) (around : Surroundings) :
    Except Failure Json × Shelf :=
  match i.visit { around with files := shelf.reading base } with
  | .error e => (.error e, shelf)
  | .ok v =>
    match v.saved with
    | none => (.ok v.output, shelf)
    | some (path, s) =>
      match shelf.save base path (stateText s) with
      | .error e => (.error e, shelf)
      | .ok shelf => (.ok v.output, shelf)

end Shelf

end Docket.CommandLine
