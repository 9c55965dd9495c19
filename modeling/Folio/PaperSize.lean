import Folio.Length
import Folio.Text.Blank

/-!
Sheets of paper and their names.
-/

namespace Folio

/-- The size of a sheet. -/
structure PaperSize where
  width : Points
  height : Points
  deriving DecidableEq, BEq, Repr, Inhabited

namespace PaperSize

/-- A sheet measured in inches. -/
def ofInches (width height : Binary32) : PaperSize :=
  ⟨Inches.toPoints ⟨width⟩, Inches.toPoints ⟨height⟩⟩

/-- A sheet measured in millimetres. -/
def ofMillimetres (width height : Binary32) : PaperSize :=
  ⟨Millimetres.toPoints ⟨width⟩, Millimetres.toPoints ⟨height⟩⟩

def letter : PaperSize := ofInches 8.5 11
def legal : PaperSize := ofInches 8.5 14
def tabloid : PaperSize := ofInches 11 17
def a3 : PaperSize := ofMillimetres 297 420
def a4 : PaperSize := ofMillimetres 210 297
def a5 : PaperSize := ofMillimetres 148 210

/-- The sheet of a name. Blanks around the name and the case of its letters do not matter. -/
def named? (name : String) : Option PaperSize :=
  match String.ofList ((Text.trimBlanks name.toList).map Char.toLower) with
  | "letter" => some letter
  | "legal" => some legal
  | "tabloid" => some tabloid
  | "a3" => some a3
  | "a4" => some a4
  | "a5" => some a5
  | _ => none

/-- The sheet on its side. -/
def turned (size : PaperSize) : PaperSize := ⟨size.height, size.width⟩

/-- The sheet with its long side upright. -/
def portrait (size : PaperSize) : PaperSize :=
  if size.width ≤ size.height then size else size.turned

/-- The sheet with its long side lying. -/
def landscape (size : PaperSize) : PaperSize :=
  if size.height ≤ size.width then size else size.turned

end PaperSize

end Folio
