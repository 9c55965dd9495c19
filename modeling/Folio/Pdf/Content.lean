import Folio.Colour
import Folio.Layout.Page
import Folio.Pdf.WinAnsi

/-!
Content streams: the operators that draw the lines of a page.

Text is drawn in one colour and one font. Each line sets the text matrix to the start of its
baseline and shows its text as a hexadecimal string, so that no character of a text can be taken
for an operator.
-/

namespace Folio

namespace Content

/-- The name under which a page knows the font. -/
def fontName : String := "F1"

/-- The colour of text. -/
def textColour : Colour := .black

/-- Two lowercase hexadecimal digits. -/
def hexByte (byte : UInt8) : List Char :=
  [Nat.digitChar (byte.toNat / 16), Nat.digitChar (byte.toNat % 16)]

/-- The bytes of a text in the encoding of the font, in hexadecimal digits. -/
def hexText (text : String) : String := String.ofList ((WinAnsi.encode text).flatMap hexByte)

/-- The operators that draw one line. -/
def showLine (line : Line) : String :=
  s!"1 0 0 1 {line.x.value.text} {line.y.value.text} Tm\n<{hexText line.text}> Tj\n"

/-- The operators that draw the lines of a page. No lines need no operators. -/
def ofLines (lines : List Line) (fontSize : Points) : String :=
  if lines.isEmpty then ""
  else
    "q\n" ++ textColour.fillOperator ++ "BT\n" ++ s!"/{fontName} {fontSize.value.text} Tf\n" ++
      String.join (lines.map showLine) ++ "ET\nQ\n"

end Content

end Folio
