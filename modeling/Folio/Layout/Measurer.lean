import Folio.Error

/-!
Measurers tell how wide a text is, or why they cannot tell. Layout works with any of them.

* `Measurer.monospace` gives every character one width; `Measurer.courier` is that of the font in
  which pages are written.
* `Measurer.perByte`, `Measurer.ofTable` and `Measurer.refusing` are further simple ones.
* `Measurer.width` blames a failure on the text that was measured.
-/

namespace Folio

/-- The width of each text, or a complaint. -/
abbrev Measurer := String → Except MeasureError Points

namespace Measurer

/-- Every character has the same width. -/
def monospace (advance : Points) : Measurer := fun text =>
  .ok (advance * (.ofNat text.length : Binary32))

/-- The characters of the Courier font are six tenths of its size wide. -/
def courierAdvance (fontSize : Points) : Points := fontSize * (0.6 : Binary32)

/-- The widths of texts in the Courier font. -/
def courier (fontSize : Points) : Measurer := monospace (courierAdvance fontSize)

/-- Every byte of the text has the same width. -/
def perByte (unit : Points) : Measurer := fun text =>
  .ok (unit * (.ofNat text.utf8ByteSize : Binary32))

/-- Characters with widths of their own, added from the left. -/
def ofTable (widths : Char → Points) : Measurer := fun text =>
  .ok (text.toList.foldl (fun sum c => sum + widths c) 0)

/-- Do the characters of `needle` stand next to each other somewhere in the text? -/
def holds (needle : List Char) : List Char → Bool
  | [] => needle.isEmpty
  | c :: text => needle.isPrefixOf (c :: text) || holds needle text

/-- Complains about texts that hold `needle`, and leaves the others to another measurer. -/
def refusing (needle message : String) (other : Measurer) : Measurer := fun text =>
  if holds needle.toList text.toList then .error ⟨message⟩ else other text

/-- The width of a text. A complaint of the measurer is blamed on the text. -/
def width (measure : Measurer) (text : String) : Except Error Points :=
  (measure text).mapError (.unmeasured text)

end Measurer

end Folio
