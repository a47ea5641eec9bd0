/-!
# Sets of code points

A set of code points given by its maximal ranges, in increasing order.
-/

namespace UpgradeAudit.Text

/-- Ranges of code points, each with its first and its last member. -/
abbrev CodePoints := List (Nat × Nat)

def CodePoints.contains (ranges : CodePoints) (c : Char) : Bool :=
  ranges.any fun range => range.1 ≤ c.toNat && c.toNat ≤ range.2

end UpgradeAudit.Text
