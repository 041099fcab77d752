/-!
# Ranges of code points

A class of characters is a list of closed ranges of code points in increasing order.
-/

namespace RouteInventory.Text

/-- Closed ranges of code points, as pairs of first and last. -/
abbrev Ranges := List (Nat × Nat)

namespace Ranges

def contains (ranges : Ranges) (c : Char) : Bool :=
  ranges.any fun (first, last) => first ≤ c.toNat && c.toNat ≤ last

end Ranges

end RouteInventory.Text
