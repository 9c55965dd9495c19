import Folio.Colour
import Folio.Highlight.Span

/-!
Themes: how each category of source text is to be shown.
-/

namespace Folio

/-- How one category is shown. -/
structure SpanStyle where
  colour : Colour
  bold : Bool := false
  italic : Bool := false
  deriving DecidableEq, BEq, Repr

/-- A style for each category. The styles of a new theme are bold dark red keywords, blue
strings, italic green comments and navy numbers. -/
structure Theme where
  keyword : SpanStyle := ⟨.ofBytes 127 0 85, true, false⟩
  string : SpanStyle := ⟨.ofBytes 42 0 255, false, false⟩
  comment : SpanStyle := ⟨.ofBytes 63 127 95, false, true⟩
  number : SpanStyle := ⟨.ofBytes 0 0 192, false, false⟩
  deriving DecidableEq, BEq, Repr

/-- The style of a category. -/
def Theme.style (theme : Theme) : Category → SpanStyle
  | .keyword => theme.keyword
  | .string => theme.string
  | .comment => theme.comment
  | .number => theme.number

end Folio
