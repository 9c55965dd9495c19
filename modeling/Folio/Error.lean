import Folio.Length
import Folio.Text.Quoted

/-!
What can go wrong, by cause. Each cause has its wording in a function `message` beside it; what
goes wrong in a settings file or with a file has a kind only.
-/

namespace Folio

/-! ### Page setups -/

/-- The lengths of a page setup that have to be positive. -/
inductive Dimension where
  | pageWidth
  | pageHeight
  | margin
  | fontSize
  | leading
  deriving DecidableEq, Repr

def Dimension.name : Dimension → String
  | pageWidth => "page width"
  | pageHeight => "page height"
  | margin => "margin"
  | fontSize => "font size"
  | leading => "leading"

/-- A reason why a page setup cannot be used. -/
inductive SetupFault where
  | notPositive (dimension : Dimension) (value : Points)
  | negativeGap (value : Points)
  | noContentArea (margin width height : Points)
  | unknownPaper (name : String)
  deriving DecidableEq, Repr

def SetupFault.message : SetupFault → String
  | notPositive dimension value =>
    s!"{dimension.name} must be a positive number, got {value.text}"
  | negativeGap value => s!"paragraph gap must not be negative, got {value.text}"
  | noContentArea margin width height =>
    s!"margin {margin.text} leaves no content area on a {width.text} × {height.text} page"
  | unknownPaper name => s!"unknown page size {Text.quoted name}"

/-! ### Measuring -/

/-- The complaint of a measurer that cannot tell the width of a text. -/
structure MeasureError where
  message : String
  deriving DecidableEq, Repr

/-! ### Fonts -/

/-- A reason why bytes are not a font. -/
inductive FontFault where
  | unknownMagic
  | malformed
  | noSuchFace
  | badHead
  | badHorizontalHeader
  | badMaximumProfile
  deriving DecidableEq, Repr

def FontFault.message : FontFault → String
  | unknownMagic => "unknown magic"
  | malformed => "malformed font"
  | noSuchFace => "face index is out of bounds"
  | badHead => "the head table is missing or malformed"
  | badHorizontalHeader => "the hhea table is missing or malformed"
  | badMaximumProfile => "the maxp table is missing or malformed"

/-! ### Files -/

/-- A reason why a file cannot be read or written. -/
inductive FileFault where
  | notFound
  | invalidText
  | outOfSpace
  deriving DecidableEq, Repr

def FileFault.message : FileFault → String
  | notFound => "file not found"
  | invalidText => "file does not hold valid text"
  | outOfSpace => "no space left to write to"

/-! ### All of them -/

/-- Whatever layout, fonts, settings or output can fail with. -/
inductive Error where
  | invalidSetup (fault : SetupFault)
  | unmeasured (text : String) (cause : MeasureError)
  | unreadableFont (fault : FontFault)
  | malformedSettings
  | file (fault : FileFault)
  deriving DecidableEq, Repr

def Error.message : Error → String
  | invalidSetup fault => "invalid page geometry: " ++ fault.message
  | unmeasured text _ => "failed to measure " ++ Text.quoted text
  | unreadableFont fault => fault.message
  | malformedSettings => "malformed settings"
  | file fault => fault.message

end Folio
