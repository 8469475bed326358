/-!
# Classes of characters

A class of characters as a list of ranges of their numbers.
-/

namespace Reckoner.Text

/-- Whether a character lies in one of the ranges. -/
def inRanges (ranges : List (Nat × Nat)) (c : Char) : Bool :=
  ranges.any fun (first, last) => first ≤ c.toNat && c.toNat ≤ last

end Reckoner.Text
