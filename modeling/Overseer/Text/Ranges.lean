/-! # Sets of characters given by closed ranges of code points -/

namespace Overseer.Text

abbrev Ranges := List (Nat × Nat)

def Ranges.contains (table : Ranges) (c : Char) : Bool :=
  table.any fun (lo, hi) => decide (lo ≤ c.toNat) && decide (c.toNat ≤ hi)

end Overseer.Text
