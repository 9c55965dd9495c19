/-!
Sets of characters as ascending lists of closed ranges of code points.
-/

namespace Folio

/-- A set of characters: closed ranges of code points, in ascending order. -/
abbrev CharRanges := List (Nat × Nat)

/-- Is the code point in one of the ranges? The search ends at the first range that lies above
it. -/
def CharRanges.covers : CharRanges → Nat → Bool
  | [], _ => false
  | (low, high) :: rest, code =>
    if code < low then false else if code ≤ high then true else covers rest code

end Folio
