/-!
# JSON values

* `Json`: a value as it was written, with the members of an object in order and repeats kept;
* `Json.field?`, `Json.fields?`: one member of an object, and the members a record has, which may
  also be given by position in an array;
* `Json.natBelow?`, `Json.str?`: a whole number under a bound, and a string.
-/

namespace Docket

/-- A JSON value. A number without sign, fraction and exponent is a `nat`; any other keeps its text.
A string literal with an unpaired surrogate escape denotes no text; such a string, and an object
with such a name, is `unpaired`. -/
inductive Json where
  | null
  | bool (b : Bool)
  | nat (n : Nat)
  | number (text : String)
  | str (s : String)
  | unpaired
  | arr (items : List Json)
  | obj (members : List (String × Json))

namespace Json

/-- The last member called `name`. -/
def member? (members : List (String × Json)) (name : String) : Option Json :=
  (members.reverse.find? (·.1 == name)).map (·.2)

/-- The last member called `name`, if the value is an object that has one. -/
def field? (name : String) : Json → Option Json
  | .obj members => member? members name
  | _ => none

/-- The values of a record's fields: from an object in which no field occurs twice, or from an array
that gives the first fields in order. Other members of the object are passed over. -/
def fields? (names : List String) : Json → Option (List (Option Json))
  | .obj members =>
    if names.all fun name => (members.filter (·.1 == name)).length ≤ 1 then
      some (names.map (member? members))
    else none
  | .arr items =>
    if items.length ≤ names.length then
      some (items.map some ++ List.replicate (names.length - items.length) none)
    else none
  | _ => none

/-- The string, if the value is one. -/
def str? : Json → Option String
  | .str s => some s
  | _ => none

/-- The number, if the value is a whole number under `bound`. -/
def natBelow? (bound : Nat) : Json → Option Nat
  | .nat n => if n < bound then some n else none
  | _ => none

/-- The number, if it fits a 64-bit word. -/
def word? (j : Json) : Option UInt64 := (j.natBelow? UInt64.size).map UInt64.ofNat

/-- A field's value, or `default` where the field is missing; `none` where it cannot be read. -/
def fieldOr {α : Type} (field : Option Json) (read : Json → Option α) (default : α) : Option α :=
  match field with
  | none => some default
  | some j => read j

end Json

end Docket
