/-!
Sets of characters given as sorted closed ranges of code points.
-/

namespace Fleet.Text

/-- Whether a code point lies in one of the ranges, which stand in ascending order. -/
def inRanges : List (Nat × Nat) → Nat → Bool
  | [], _ => false
  | (low, high) :: rest, n => if n < low then false else n ≤ high || inRanges rest n

end Fleet.Text
