import Folio.Highlight.Pattern

/-!
Categories of source text, and the spans that carry them.

* `Paint` holds one optional category per byte, and `Paint.cover` overwrites a stretch of it.
* `Paint.spans` collects runs of one category into spans, in one loop over the bytes.
* `StyleSpan.text?` cuts a span out of its text.
-/

namespace Folio

/-- What a stretch of source text is. -/
inductive Category where
  | keyword
  | string
  | comment
  | number
  deriving DecidableEq, Repr

/-- The bytes from `start` up to `stop` of a text, with their category. -/
structure StyleSpan where
  start : Nat
  stop : Nat
  category : Category
  deriving DecidableEq, Repr

namespace StyleSpan

/-- Number of bytes of the span. -/
def size (s : StyleSpan) : Nat := s.stop - s.start

def isEmpty (s : StyleSpan) : Bool := s.start == s.stop

/-- The text of a span: none if the span does not lie between characters of the text. -/
def text? (s : StyleSpan) (text : String) : Option String := do
  let rest ← Text.dropBytes? s.start text.toList
  return String.ofList (← Text.takeBytes? s.size rest)

end StyleSpan

/-! ### Paint -/

/-- One optional category for every byte of a text. -/
abbrev Paint := Array (Option Category)

namespace Paint

/-- Paints the given number of bytes from an offset on. What lies past the end is left out. -/
def fill (category : Category) (offset : Nat) : Nat → Paint → Paint
  | 0, paint => paint
  | bytes + 1, paint => fill category (offset + 1) bytes (paint.setIfInBounds offset category)

/-- Paints a stretch, over whatever was there. -/
def cover (category : Category) (paint : Paint) (r : ByteRange) : Paint :=
  fill category r.start (r.stop - r.start) paint

/-- Spans that are being collected from the left: the complete ones, and the start and the category
of the run that may go on. -/
structure Collected where
  complete : Array StyleSpan := #[]
  run : Option (Nat × Category) := none

namespace Collected

/-- The spans if the open run ends at `stop`. -/
def close (c : Collected) (stop : Nat) : Array StyleSpan :=
  match c.run with
  | some (start, category) => c.complete.push ⟨start, stop, category⟩
  | none => c.complete

/-- One more byte, with its offset. It joins the open run if it has the category of the run. Else it
ends the run, and starts one if it has a category. -/
def add (c : Collected) : Option Category × Nat → Collected
  | (byte, offset) =>
    if byte.isSome ∧ c.run.map Prod.snd = byte then c
    else ⟨c.close offset, byte.map fun category => (offset, category)⟩

end Collected

/-- The runs of equally painted bytes, from the left. -/
def spans (paint : Paint) : List StyleSpan :=
  ((paint.toList.zipIdx.foldl Collected.add {}).close paint.size).toList

end Paint

end Folio
