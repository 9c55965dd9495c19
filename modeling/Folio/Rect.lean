import Folio.Length

/-!
Rectangles on a page, whose origin is the lower left corner.
-/

namespace Folio

/-- A rectangle between two opposite corners. -/
structure Rect where
  left : Points
  bottom : Points
  right : Points
  top : Points
  deriving DecidableEq, BEq, Repr, Inhabited

namespace Rect

def width (r : Rect) : Points := r.right - r.left

def height (r : Rect) : Points := r.top - r.bottom

/-- Does a baseline at height `y` lie between the bottom and the top of the rectangle? -/
def containsY (r : Rect) (y : Points) : Bool := r.bottom ≤ y && y ≤ r.top

end Rect

end Folio
