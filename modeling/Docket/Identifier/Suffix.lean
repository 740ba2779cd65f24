import Docket.Error

/-!
# Random suffixes

* `Suffix.letters`: the digits and capitals that are hard to confuse: no `0`, `1`, `I` or `O`;
* `Suffix.spell`: random words as letters of an alphabet, one letter a word;
* `Suffix.confusableFree`: the same with `Suffix.letters`;
* `Suffix.checkAlphabet`: an alphabet must hold something, and only ASCII other than `-`.
-/

namespace Docket.Suffix

/-- Digits and capitals that are hard to confuse. -/
def letters : String := "23456789ABCDEFGHJKLMNPQRSTUVWXYZ"

/-- Refuses an alphabet that is empty, not ASCII or holds `-`. -/
def checkAlphabet (alphabet : String) : Except Error Unit :=
  if alphabet.isEmpty || alphabet.toList.any (fun c => 128 ≤ c.toNat || c == '-') then
    .error (.invalid (.alphabet alphabet))
  else .ok ()

/-- The letter that a random word picks. -/
def pick (alphabet : List Char) (word : UInt64) : Char :=
  alphabet.getD (word.toNat % alphabet.length) ' '

/-- Random words as letters of an alphabet. -/
def spell (alphabet : String) (words : List UInt64) : String :=
  String.ofList (words.map (pick alphabet.toList))

/-- Random words as letters that are hard to confuse. -/
def confusableFree (words : List UInt64) : String := spell letters words

end Docket.Suffix
