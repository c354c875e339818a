/-!
# Sets of characters as ranges

Properties that Unicode assigns to characters are kept as lists of ranges of code points, both
ends included.
-/

namespace SliceLint.Text

/-- The code point lies in one of the ranges. -/
def inRanges (ranges : List (Nat × Nat)) (n : Nat) : Bool :=
  ranges.any fun (first, last) => first ≤ n && n ≤ last

end SliceLint.Text
