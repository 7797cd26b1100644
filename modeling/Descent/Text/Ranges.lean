/-!
# Tables of character ranges

A class of characters beyond ASCII is written as a list of closed ranges of code points.
-/

namespace Descent.Text

/-- The code point of `c` lies in one of the closed ranges. -/
def inRanges (ranges : List (Nat × Nat)) (c : Char) : Bool :=
  ranges.any fun (low, high) => low ≤ c.toNat && c.toNat ≤ high

end Descent.Text
