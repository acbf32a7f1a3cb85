/-
  Sets of characters given as ranges of code points.
-/
namespace Harvest.Text

/-- Ranges of code points, both ends included, in ascending order. -/
abbrev Ranges := Array (Nat × Nat)

/-- Whether a code point lies in one of the ranges. -/
def Ranges.has (rs : Ranges) (n : Nat) : Bool := rs.any fun r => r.1 ≤ n && n ≤ r.2

end Harvest.Text
