/-!
# Random words

* `Words.mix`: scrambles a word, one to one;
* `Words.ofSeed`: a stream of words from a seed.
-/

namespace Docket.Words

/-- Scrambles a word by multiplications and shifts, each of which can be undone. -/
def mix (z : UInt64) : UInt64 :=
  let z := (z ^^^ (z >>> 30)) * 0xbf58476d1ce4e5b9
  let z := (z ^^^ (z >>> 27)) * 0x94d049bb133111eb
  z ^^^ (z >>> 31)

/-- The word with an index in the stream of a seed: steps of an odd length from the seed, mixed. -/
def ofSeed (seed : UInt64) (index : Nat) : UInt64 :=
  mix (seed + UInt64.ofNat (index + 1) * 0x9e3779b97f4a7c15)

end Docket.Words
