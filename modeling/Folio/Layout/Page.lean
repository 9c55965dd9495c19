import Folio.Layout.PageSetup
import Folio.Layout.Wrap

/-!
Pages of placed lines, and the pagination of a text.

`paginate` normalises a text, wraps each of its logical lines to the width of the content box
(`wrapLines`) and stacks the fragments on pages from the top down. Stacking is a function of the
fragments alone: `steps` lays them out as a list of lines and gaps, and `stack` moves a baseline
down that list.
-/

namespace Folio

/-- A placed line: its text and the start of its baseline. Heights grow upward from the bottom of
the page. -/
structure Line where
  text : String
  x : Points
  y : Points
  deriving DecidableEq, BEq, Repr

/-- The parts of a line between its spaces. Two spaces in a row have an empty part between
them. -/
def Line.words (line : Line) : List String :=
  (line.text.toList.splitOn ' ').map String.ofList

/-- A page with its lines from top to bottom. Pages are numbered from one. -/
structure Page where
  number : Nat
  mediaBox : Rect
  contentBox : Rect
  lines : List Line
  deriving DecidableEq, BEq, Repr

namespace Page

/-- A page without lines. -/
def blank (number : Nat) (setup : PageSetup) : Page :=
  ⟨number, setup.mediaBox, setup.contentBox, []⟩

/-- The page with one more line at its end. -/
def addLine (page : Page) (line : Line) : Page := { page with lines := page.lines ++ [line] }

def isEmpty (page : Page) : Bool := page.lines.isEmpty

end Page

/-! ### Stacking -/

/-- One step down the page. -/
inductive Step where
  /-- A line, and the leading below it. -/
  | line (text : String)
  /-- The gap after a logical line. -/
  | gap
  deriving DecidableEq, Repr

/-- The steps of logical lines that are wrapped already: the fragments of each, and its gap. -/
def steps (wrapped : List (List String)) : List Step :=
  wrapped.flatMap fun fragments => fragments.map .line ++ [.gap]

/-- Places the lines of some steps. The open page is `page` and the baseline `y`. A line whose
baseline is below the bottom margin goes to the start of the next page, or back to the start of
the open page if that has no line yet. -/
def stack (setup : PageSetup) (page : Page) (y : Points) : List Step → List Page
  | [] => [page]
  | .gap :: rest => stack setup page (y - setup.gap) rest
  | .line text :: rest =>
    let first : Line := ⟨text, setup.start.1, setup.start.2⟩
    let below := setup.start.2 - setup.leading
    if y < setup.margin then
      if page.isEmpty then stack setup (page.addLine first) below rest
      else page :: stack setup ((Page.blank (page.number + 1) setup).addLine first) below rest
    else stack setup (page.addLine ⟨text, setup.start.1, y⟩) (y - setup.leading) rest

/-- The pages of logical lines that are wrapped already. -/
def stackAll (setup : PageSetup) (wrapped : List (List String)) : List Page :=
  stack setup (.blank 1 setup) setup.start.2 (steps wrapped)

/-! ### Pagination -/

/-- The fragments of every logical line of a text. -/
def wrapLines {m : Type → Type} [Monad m] (width : String → m Points) (limit : Points)
    (text : String) : m (List (List String)) :=
  (logicalLines (normalise text)).mapM (wrap width limit)

/-- The pages of a text. Within one pagination no text is measured twice. -/
def paginate (text : String) (setup : PageSetup) (measure : Measurer) :
    Except Error (List Page) := do
  setup.check.mapError .invalidSetup
  let wrapped ← (wrapLines (memoized measure.width) setup.contentBox.width text).run' ∅
  return stackAll setup wrapped

end Folio
