import Folio.Error
import Folio.PaperSize
import Folio.Rect

/-!
Page setups: the size of the page, its margin, and the spacing of its lines.

* `PageSetup.check` accepts the setups that leave room for content.
* `PageSetup.contentBox` is the page without its margins, and `PageSetup.start` its upper left
  corner, where the first baseline of every page starts.
-/

namespace Folio

/-- How pages are laid out. -/
structure PageSetup where
  width : Points
  height : Points
  /-- One margin for all four sides. -/
  margin : Points
  fontSize : Points
  /-- Distance from one baseline to the next. -/
  leading : Points
  /-- Further distance after each logical line. -/
  gap : Points
  deriving DecidableEq, BEq, Repr

namespace PageSetup

/-- The usual spacing of a font size: leading of one and a half font sizes, and a gap of half the
leading. -/
def ofFontSize (paper : PaperSize) (margin fontSize : Points) : PageSetup :=
  let leading := fontSize * (1.5 : Binary32)
  { width := paper.width, height := paper.height, margin, fontSize, leading,
    gap := leading * (0.5 : Binary32) }

/-- The lengths that have to be positive, in the order in which they are checked. -/
def positiveLengths (s : PageSetup) : List (Dimension × Points) :=
  [(.pageWidth, s.width), (.pageHeight, s.height), (.margin, s.margin),
   (.fontSize, s.fontSize), (.leading, s.leading)]

/-- Accepts a setup whose lengths are positive, whose gap is finite and not negative, and whose
margins leave something of the page. -/
def check (s : PageSetup) : Except SetupFault Unit :=
  match s.positiveLengths.find? fun length => !length.2.isPositive with
  | some (dimension, value) => .error (.notPositive dimension value)
  | none =>
    if !s.gap.value.isFinite || s.gap < 0 then .error (.negativeGap s.gap)
    else if s.width ≤ s.margin * (2 : Binary32) || s.height ≤ s.margin * (2 : Binary32) then
      .error (.noContentArea s.margin s.width s.height)
    else .ok ()

/-- The whole page. -/
def mediaBox (s : PageSetup) : Rect := ⟨0, 0, s.width, s.height⟩

/-- The page within its margins. -/
def contentBox (s : PageSetup) : Rect :=
  ⟨s.margin, s.margin, s.width - s.margin, s.height - s.margin⟩

/-- Where the first baseline of a page starts. -/
def start (s : PageSetup) : Points × Points := (s.contentBox.left, s.contentBox.top)

end PageSetup

end Folio
