/-
# Sets of characters given by intervals

A property of characters is tabulated as a list of closed intervals of code points.
-/

namespace RouteTemplate.Text

/-- The character lies in one of the closed intervals of code points. -/
def inIntervals (table : List (Nat × Nat)) (c : Char) : Bool :=
  table.any fun (first, last) => first ≤ c.toNat && c.toNat ≤ last

end RouteTemplate.Text
