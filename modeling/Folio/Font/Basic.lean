import Folio.Font.CharMap
import Folio.Font.Names
import Folio.Font.Variation.Basic
import Folio.Layout.Measurer

/-!
Fonts, as far as measuring text needs them.

`Font.load` reads the tables of a font file: the size of the em square and the heights of the
lines, the advances of the glyphs, the character maps, the names, and the deltas of a variable
font. From them follow `Font.ascent`, `Font.descent` and `Font.lineHeight` at any size, and the
measurer `Font.widthOfText`.
-/

namespace Folio

/-- The widths of glyphs: one each for the first ones, the last of which holds for the others
below `limit`. -/
structure Advances where
  widths : Array Nat
  limit : Nat
  deriving DecidableEq, Repr

/-- The measures of a font, in parts of the em square. -/
structure Font where
  unitsPerEm : Nat
  ascender : Int
  descender : Int
  lineGap : Int
  advances : Option Advances
  variation : Option Variation
  charMaps : List CharMap
  names : List FontName

namespace Font

open Bytes

/-! ### Tables -/

/-- The magic number of a collection of fonts. -/
def collectionMagic : Nat := 0x74746366

/-- The magic numbers that a file can start with. -/
def magics : List Nat := [0x00010000, 0x74727565, 0x4f54544f, collectionMagic]

/-- Where the table directory of the file starts, behind its magic number. In a collection it is
that of the first font. -/
def directory (data : ByteArray) : Except FontFault Nat := do
  match nat32? data 0 with
  | none => throw .unknownMagic
  | some magic =>
    if magic ∉ magics then throw .unknownMagic
    if magic ≠ collectionMagic then return 4
    let some count := nat32? data 8 | throw .malformed
    if !room data 12 count 4 then throw .malformed
    if count = 0 then throw .noSuchFace
    let some place := nat32? data 12 | throw .malformed
    if place < 12 + 4 * count || data.size < place then throw .malformed
    match nat32? data place with
    | none => throw .unknownMagic
    | some magic =>
      if magic ∉ magics || magic = collectionMagic then throw .unknownMagic
      return place + 4

/-- The tables of a file by their tags: for each record of the directory its bytes, or none if
they lie outside the file. -/
def tables (data : ByteArray) : Except FontFault (List (Nat × Option ByteArray)) := do
  let start ← directory data
  let some count := nat16? data start | throw .malformed
  if !room data (start + 8) count 16 then throw .malformed
  return (List.range count).map fun i =>
    let place := start + 8 + 16 * i
    let number (offset : Nat) := (nat32? data (place + offset)).getD 0
    (number 0, slice? data (number 8) (number 12))

/-- The table of a tag. The last record of the tag decides. -/
def table? (tables : List (Nat × Option ByteArray)) (tag : Nat) : Option ByteArray :=
  match tables.reverse.find? (·.1 == tag) with
  | some (_, data) => data
  | none => none

/-- The size of the em square, from the font header, and whether places of outlines are given in
the long form. -/
def readHeader? (head : ByteArray) : Option (Nat × Bool) := do
  guard (54 ≤ head.size)
  let unitsPerEm ← nat16? head 18
  let placeFormat ← nat16? head 50
  guard (16 ≤ unitsPerEm && unitsPerEm ≤ 16384 && placeFormat ≤ 1)
  return (unitsPerEm, placeFormat == 1)

/-- The heights of lines, as one table gives them. -/
structure Heights where
  ascender : Int
  descender : Int
  lineGap : Int
  deriving DecidableEq, Repr

/-- The heights and the number of advances, from the horizontal header. -/
def readHorizontalHeader? (table : ByteArray) : Option (Heights × Nat) := do
  guard (36 ≤ table.size)
  return (⟨← int16? table 4, ← int16? table 6, ← int16? table 8⟩, ← nat16? table 34)

/-- The number of glyphs, from the maximum profile. -/
def readGlyphCount? (table : ByteArray) : Option Nat := do
  let version ← nat32? table 0
  guard (version == 0x00005000 || version == 0x00010000)
  let count ← nat16? table 4
  guard (count ≠ 0)
  return count

/-- The advances of glyphs. -/
def readAdvances? (table : ByteArray) (count glyphs : Nat) : Option Advances := do
  guard (count ≠ 0 && room table 0 count 4)
  let widths := (Array.range count).map fun i => (nat16? table (4 * i)).getD 0
  return ⟨widths, max count glyphs⟩

/-- The heights that a font states for two kinds of programs, and whether the first are to be
used. -/
structure SystemHeights where
  useTypographic : Bool
  typographic : Heights
  windowsAscender : Int
  windowsDescender : Int
  deriving DecidableEq, Repr

/-- The least length of the table for each of its versions. -/
def systemTableLengths : List Nat := [78, 86, 96, 96, 96, 100]

/-- The heights of the system table. The lower one is given downward there. -/
def readSystemHeights? (table : ByteArray) : Option SystemHeights := do
  let version ← nat16? table 0
  let length ← systemTableLengths[version]?
  guard (length ≤ table.size)
  let selection ← nat16? table 62
  return {
    useTypographic := 4 ≤ version && selection / 128 % 2 == 1
    typographic := ⟨← int16? table 68, ← int16? table 70, ← int16? table 72⟩
    windowsAscender := ← int16? table 74
    windowsDescender := Int.bmod (-(← int16? table 76)) 0x10000 }

/-- One height of the horizontal header. If it is zero the typographic one stands in for it, and
if that is zero too the one for windows. Only a height that stands in is varied. -/
def firstNonzero (vary : HeightKind → Int → Int) (header : Int)
    (typographic windows : HeightKind × Int) : Int :=
  if header ≠ 0 then header
  else if typographic.2 ≠ 0 then vary typographic.1 typographic.2
  else vary windows.1 windows.2

/-- The heights that count. Those of the system table are varied. -/
def heights (vary : HeightKind → Int → Int) (header : Heights) : Option SystemHeights → Heights
  | none => header
  | some system =>
    let typographic := system.typographic
    let lineGap := vary .typographicLineGap typographic.lineGap
    if system.useTypographic then
      { ascender := vary .typographicAscender typographic.ascender
        descender := vary .typographicDescender typographic.descender
        lineGap }
    else
      { ascender :=
          firstNonzero vary header.ascender (.typographicAscender, typographic.ascender)
            (.windowsAscender, system.windowsAscender)
        descender :=
          firstNonzero vary header.descender (.typographicDescender, typographic.descender)
            (.windowsDescender, system.windowsDescender)
        lineGap :=
          if header.ascender = 0 ∨ header.descender = 0 then
            if typographic.ascender ≠ 0 ∨ typographic.descender ≠ 0 then lineGap else 0
          else header.lineGap }

/-- Reads a font file. Three tables have to be there; without one of the others a font has no
advances, variation, glyphs or names. -/
def load (data : ByteArray) : Except FontFault Font := do
  let tables ← tables data
  let find := table? tables
  let some (unitsPerEm, isLong) := find 0x68656164 >>= readHeader? | throw .badHead
  let some (header, advanceCount) := find 0x68686561 >>= readHorizontalHeader?
    | throw .badHorizontalHeader
  let some glyphCount := find 0x6d617870 >>= readGlyphCount? | throw .badMaximumProfile
  let variation := Variation.ofTables? {
    axes := find 0x66766172
    advances := find 0x48564152
    heights := find 0x4d564152
    points := find 0x67766172
    places := find 0x6c6f6361
    outlines := find 0x676c7966 } glyphCount isLong
  let heights :=
    heights (Variation.height variation) header (find 0x4f532f32 >>= readSystemHeights?)
  return {
    unitsPerEm
    ascender := heights.ascender
    descender := heights.descender
    lineGap := heights.lineGap
    advances := find 0x686d7478 >>= fun table => readAdvances? table advanceCount glyphCount
    variation
    charMaps := ((find 0x636d6170).map CharMap.ofTable).getD []
    names := ((find 0x6e616d65).map FontName.ofTable).getD [] }

/-! ### Measures -/

/-- The full name of the font. -/
def fullName? (font : Font) : Option String := FontName.find? font.names FontName.full

/-- The name of the family of the font. -/
def familyName? (font : Font) : Option String := FontName.find? font.names FontName.family

/-- The size of one part of the em square. -/
def scaling (font : Font) (size : Points) : Points :=
  size / (.ofNat font.unitsPerEm : Binary32)

/-- A number of parts of the em square at a size. -/
def scaled (font : Font) (size : Points) (parts : Int) : Points :=
  font.scaling size * (.ofInt parts : Binary32)

/-- How far the font reaches above the baseline. -/
def ascent (font : Font) (size : Points) : Points := font.scaled size font.ascender

/-- How far the font reaches below the baseline, as a negative length. -/
def descent (font : Font) (size : Points) : Points := font.scaled size font.descender

/-- The distance of two baselines that the font asks for. -/
def lineHeight (font : Font) (size : Points) : Points :=
  font.scaled size font.lineGap + font.ascent size - font.descent size

/-- The glyph of a character: that of the first map that has one. -/
def glyph? (font : Font) (c : Char) : Option Nat :=
  font.charMaps.findSome? fun map => map.glyph? c.toNat

/-- The advance of a glyph. The deltas of a variable font can leave a glyph without one. -/
def advance? (font : Font) (glyph : Nat) : Option Nat := do
  let advances ← font.advances
  guard (glyph < advances.limit)
  let advance ← advances.widths[glyph]? <|> advances.widths.back?
  Variation.advance? font.variation glyph advance

/-- The width of a character. A glyph without advance has no width. -/
def charWidth (font : Font) (size : Points) (c : Char) : Except MeasureError Points :=
  match font.glyph? c with
  | none => .error ⟨"font has no glyph for " ++ Text.quotedChar c⟩
  | some glyph => .ok (font.scaled size ((font.advance? glyph).getD 0))

/-- The width of a text, unless the font has no glyph for one of its characters; the first of
those is named. -/
def widthOfText (font : Font) (size : Points) : Measurer := fun text =>
  .sum <$> text.toList.mapM (font.charWidth size)

end Font

end Folio
