/-!
Sets of characters given by ranges of their codes.
-/

namespace Multicast.Text

/-- Whether the code of `c` lies in one of the ranges, ends included. -/
def inRanges (ranges : List (Nat × Nat)) (c : Char) : Bool :=
  ranges.any fun (lo, hi) => decide (lo ≤ c.toNat) && decide (c.toNat ≤ hi)

end Multicast.Text
