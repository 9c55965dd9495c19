import Folio.Font.Outlines
import Folio.Font.Variation.Advances
import Folio.Font.Variation.Heights
import Folio.Font.Variation.Points

/-!
Variable fonts at their default place.

The place of every axis is zero there, and still deltas can count (`AxisRange.holdsDefault`).
`Variation.advance?` is the advance of a glyph and `Variation.height` a height of lines after
them. A font that is not variable keeps both.
-/

namespace Folio

/-- What the axes of a font change. The deltas of advances stand in for those of points. -/
structure Variation where
  axes : Nat
  advances : Option AdvanceDeltas
  heights : Option HeightDeltas
  points : Option (Outlines × PointDeltas)

/-- The tables that tell how a font varies, as far as they are there. -/
structure VariationTables where
  axes : Option ByteArray
  advances : Option ByteArray
  heights : Option ByteArray
  points : Option ByteArray
  places : Option ByteArray
  outlines : Option ByteArray

namespace Variation

/-- Reads how a font with that many glyphs varies. A table that cannot be read counts as
missing. -/
def ofTables? (tables : VariationTables) (glyphs : Nat) (isLong : Bool) : Option Variation := do
  let axes ← tables.axes >>= readAxisCount?
  let points := do
    let outlines ← Outlines.read? (← tables.places) (← tables.outlines) glyphs isLong
    return (outlines, ← PointDeltas.read? (← tables.points))
  return {
    axes
    advances := tables.advances >>= AdvanceDeltas.read?
    heights := tables.heights >>= HeightDeltas.read?
    points }

/-- What the advance of a glyph changes by, if the font says so. -/
def advanceDelta? (variation : Variation) (glyph : Nat) : Option Binary32 :=
  match variation.advances with
  | some deltas => deltas.delta? variation.axes glyph
  | none => do
    let (outlines, deltas) ← variation.points
    deltas.rightDelta? variation.axes glyph (outlines.pointCount glyph)

/-- The advance of a glyph after its change, rounded by adding a half and dropping the places. There
is none if that leads out of the range of advances. -/
def advance? (variation : Option Variation) (glyph advance : Nat) : Option Nat :=
  match variation.bind (·.advanceDelta? glyph) with
  | none => some advance
  | some delta => do
    let sum : Int := ((.ofNat advance : Binary32) + (delta + 0.5)).truncate (-1) 0x10000
    guard (0 ≤ sum && sum < 0x10000)
    return sum.toNat

/-- A height of the system table after its change. -/
def height (variation : Option Variation) (kind : HeightKind) (height : Int) : Int :=
  match variation with
  | none => height
  | some { axes, heights := some deltas, .. } => deltas.varied axes kind height
  | some { heights := none, .. } => height

end Variation

end Folio
