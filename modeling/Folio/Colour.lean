import Folio.Binary.Decimal

/-!
Colours in the three colour spaces of a page description. A component is full at one and absent
at zero; nothing holds it there, so that `Colour.toBytes` has to.
-/

namespace Folio

inductive Colour where
  | rgb (red green blue : Binary32)
  | cmyk (cyan magenta yellow black : Binary32)
  | grey (level : Binary32)
  deriving DecidableEq, BEq, Repr

namespace Colour

def black : Colour := .grey 0

def white : Colour := .grey 1

/-- A colour whose components are full at 255. -/
def ofBytes (red green blue : UInt8) : Colour :=
  let component (byte : UInt8) : Binary32 := .ofNat byte.toNat / 255
  .rgb (component red) (component green) (component blue)

/-- A colour whose components are whole numbers, taken as they are: 1 is full and 255 far past
it. -/
def ofWholes (red green blue : UInt8) : Colour :=
  .rgb (.ofNat red.toNat) (.ofNat green.toNat) (.ofNat blue.toNat)

/-- The byte nearest to a component that is full at one. Components past the ends are held there,
and what is not a number is zero. -/
def byte (component : Binary32) : UInt8 := (component.clamp 0 1 * 255).nearestNat.toUInt8

/-- The three bytes for red, green and blue. Black ink darkens the other three inks evenly. -/
def toBytes : Colour → UInt8 × UInt8 × UInt8
  | .rgb red green blue => (byte red, byte green, byte blue)
  | .cmyk cyan magenta yellow black =>
    let light (ink : Binary32) := byte ((1 - ink) * (1 - black))
    (light cyan, light magenta, light yellow)
  | .grey level => (byte level, byte level, byte level)

/-- The operator that sets the colour in which a content stream fills shapes and text. -/
def fillOperator : Colour → String
  | .rgb red green blue => s!"{red.text} {green.text} {blue.text} rg\n"
  | .cmyk cyan magenta yellow black =>
    s!"{cyan.text} {magenta.text} {yellow.text} {black.text} k\n"
  | .grey level => s!"{level.text} g\n"

end Colour

end Folio
