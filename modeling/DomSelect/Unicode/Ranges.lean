/-!
# Ranges of code points

A property of characters is given as a list of ranges of code points, in increasing order.
-/

namespace DomSelect.Unicode

/-- Ranges of code points, each with its first and its last member. -/
abbrev Ranges := List (Nat × Nat)

/-- Whether `code` lies in one of the ranges. -/
def Ranges.contains (ranges : Ranges) (code : Nat) : Bool :=
  ranges.any fun range => range.1 ≤ code && code ≤ range.2

end DomSelect.Unicode
