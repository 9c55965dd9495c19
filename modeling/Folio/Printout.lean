import Folio.Highlight.Basic
import Folio.Pdf.Document
import Folio.Settings

/-!
Printouts: a source file, highlighted, laid out with the settings of an editor and written as a
PDF file.
-/

namespace Folio

/-- What becomes of a source file. -/
structure Printout where
  language : Language
  spans : List StyleSpan
  pages : List Page
  file : ByteArray

namespace Printout

/-- The subject that printouts are filed under. -/
def subject : String := "export-pdf demo"

/-- The printout of a source text with some settings. Its language comes from the path of the
file, which is its title too. -/
def ofSource (text path : String) (settings : Settings) : Except Error Printout := do
  let language := Language.ofPath path
  let setup ← settings.setup
  let pages ← paginate text setup (.courier setup.fontSize)
  let file ← Pdf.render pages setup (some { title := path, subject })
  return ⟨language, highlight text language, pages, file⟩

/-- The number of spans of a category. -/
def count (printout : Printout) (category : Category) : Nat :=
  printout.spans.countP (·.category == category)

end Printout

end Folio
