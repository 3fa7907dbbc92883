/-!
# Ranges of characters

Properties of characters given as a table of ranges of code points.
-/

namespace ContainerAudit.Text

/-- The character lies in one of the ranges, ends included. -/
def inRanges (ranges : List (Nat × Nat)) (c : Char) : Bool :=
  ranges.any fun (low, high) => low ≤ c.toNat && c.toNat ≤ high

end ContainerAudit.Text
