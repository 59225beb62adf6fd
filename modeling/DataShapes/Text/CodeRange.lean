/-!
# Sets of characters as ranges of code points

A character class of the Unicode standard is a list of closed ranges of code points, ascending and
apart.  The classes of this library are those of version 14.0 of the standard.

Main definition:
* `CodeRange.covers`: a code point lies in one of the ranges.
-/

namespace DataShapes

namespace CodeRange

/-- The code point lies in one of the closed ranges. -/
def covers (ranges : List (Nat × Nat)) (n : Nat) : Bool := ranges.any fun r => r.1 ≤ n && n ≤ r.2

end CodeRange

end DataShapes
