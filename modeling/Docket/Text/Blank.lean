/-!
# Blank space

The characters with Unicode's `White_Space` property.

* `isBlank`: the property;
* `Blank.skip`, `Blank.trim`: a text without the blanks in front, and without those at both ends;
* `Blank.lines`: the trimmed lines of a text that hold anything.
-/

namespace Docket

/-- Whether `c` has the property `White_Space`. -/
def isBlank (c : Char) : Bool :=
  let n := c.toNat
  (0x09 ≤ n && n ≤ 0x0d) || n == 0x20 || n == 0x85 || n == 0xa0 || n == 0x1680 ||
    (0x2000 ≤ n && n ≤ 0x200a) || n == 0x2028 || n == 0x2029 || n == 0x202f || n == 0x205f ||
    n == 0x3000

namespace Blank

/-- A text without the blanks in front. -/
def skip (cs : List Char) : List Char := cs.dropWhile isBlank

/-- A text without the blanks at either end. -/
def trim (cs : List Char) : List Char := (skip (skip cs).reverse).reverse

/-- The lines of a text, trimmed, less those that hold nothing. -/
def lines (cs : List Char) : List String :=
  (((cs.splitOn '\n').map trim).filter (!·.isEmpty)).map String.ofList

end Blank

end Docket
