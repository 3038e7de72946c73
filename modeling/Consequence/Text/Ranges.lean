/-!
# Tables of code points

A set of code points is a list of closed ranges in ascending order, so a search ends at the first
range that starts behind the code point.
-/

set_option autoImplicit false

namespace Consequence

/-- Closed ranges of code points, ascending and disjoint. -/
abbrev Ranges := List (UInt32 × UInt32)

/-- Some range of the table holds `n`. -/
def Ranges.covers : Ranges → UInt32 → Bool
  | [], _ => false
  | (first, last) :: others, n =>
    if n < first then false
    else if n ≤ last then true
    else Ranges.covers others n

end Consequence
