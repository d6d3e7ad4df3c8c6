/-!
# Ranges of code points

Character classes are given as lists of inclusive ranges, in ascending order.
-/

namespace Propositional.Text

/-- Membership of a character in one of the ranges. -/
def inRanges (ranges : List (Nat × Nat)) (c : Char) : Bool :=
  ranges.any fun (first, last) => first ≤ c.toNat && c.toNat ≤ last

end Propositional.Text
