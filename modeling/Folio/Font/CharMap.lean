import Folio.Font.Bytes

/-!
Character maps of a font: which glyph shows a character.

A font may hold several maps in several formats (`CharMap`). `CharMap.ofTable` reads those that
can be used for the characters of text, in order, and `CharMap.glyph?` looks a character up in
one of them.
-/

namespace Folio

/-- The characters from `first` up to `last`, and a glyph for them. -/
structure GlyphRange where
  first : Nat
  last : Nat
  glyph : Nat
  deriving DecidableEq, Repr

/-- One character map. -/
inductive CharMap where
  /-- One byte per character; glyph zero is none. -/
  | bytes (glyphs : ByteArray)
  /-- Characters of one or two bytes: the header of a first byte leads to a range of second
  bytes. -/
  | twoBytes (data : ByteArray) (headers : Nat)
  /-- Segments in four parallel columns of `count` entries. -/
  | segments (data : ByteArray) (count : Nat)
  /-- Consecutive glyphs for the characters from `first` on, up to the character `limit`. -/
  | consecutive (first limit : Nat) (glyphs : Array Nat)
  /-- Ranges with consecutive glyphs, looked up by halving. -/
  | ranges (ranges : Array GlyphRange)
  /-- Ranges of one glyph each, looked up from the first. -/
  | shared (ranges : Array GlyphRange)
  /-- A map that gives no glyph to a character alone. -/
  | unmapped

namespace CharMap

open Bytes

/-! ### Reading -/

/-- Ranges of twelve bytes, one after the other. -/
def glyphRanges (data : ByteArray) (start count : Nat) : Array GlyphRange :=
  (Array.range count).map fun i =>
    let number (place : Nat) := (nat32? data (start + 12 * i + place)).getD 0
    ⟨number 0, number 4, number 8⟩

/-- The headers that the keys of all first bytes lead to: one more than the greatest. -/
def headerCount (data : ByteArray) : Nat :=
  ((List.range 256).map fun i => (nat16? data (6 + 2 * i)).getD 0 / 8).foldl max 0 + 1

/-- Reads a map of any format. -/
def read? (data : ByteArray) : Option CharMap := do
  match ← nat16? data 0 with
  | 0 => return bytes (← slice? data 6 256)
  | 2 =>
    guard (room data 6 256 2)
    let headers := headerCount data
    guard (room data 518 headers 8)
    return twoBytes data headers
  | 4 =>
    let count := (← nat16? data 6) / 2
    guard (count ≠ 0 && room data 16 (4 * count) 2)
    return segments data count
  | 6 =>
    let first ← nat16? data 6
    let count ← nat16? data 8
    return consecutive first 0xffff (← nats? data 10 count 2)
  | 8 => return unmapped
  | 10 =>
    let first ← nat32? data 12
    let count ← nat32? data 16
    return consecutive first 0xffffffff (← nats? data 20 count 2)
  | 12 =>
    let count ← nat32? data 12
    guard (room data 16 count 12)
    return ranges (glyphRanges data 16 count)
  | 13 =>
    let count ← nat32? data 12
    guard (room data 16 count 12)
    return shared (glyphRanges data 16 count)
  | 14 =>
    let count ← nat32? data 6
    guard (room data 10 count 11)
    return unmapped
  | _ => none

/-- Does a map of this platform and encoding hold the characters of text? -/
def isForText (platform encoding : Nat) (map : CharMap) : Bool :=
  match platform, encoding with
  | 0, _ => true
  | 3, 1 => true
  | 3, 10 => match map with
    | ranges _ | shared _ => true
    | _ => false
  | _, _ => false

/-- The usable maps among the records of a table from the given one on. The first record that
cannot be read is the last one looked at. -/
def readRecords (table : ByteArray) (place : Nat) : Nat → List CharMap
  | 0 => []
  | count + 1 =>
    let found := do
      let platform ← nat16? table place
      let encoding ← nat16? table (place + 2)
      let offset ← nat32? table (place + 4)
      guard (platform ≤ 4 && offset ≤ table.size)
      return (platform, encoding, ← read? (← from? table offset))
    match found with
    | none => []
    | some (platform, encoding, map) =>
      let rest := readRecords table (place + 8) count
      if map.isForText platform encoding then map :: rest else rest

/-- The usable maps of a table, in order. -/
def ofTable (table : ByteArray) : List CharMap :=
  match nat16? table 2 with
  | some count => if room table 4 count 8 then readRecords table 4 count else []
  | none => []

/-! ### Looking up -/

/-- A glyph number, if it has one. -/
def glyphNumber? (n : Int) : Option Nat := if 0 ≤ n ∧ n < 0x10000 then some n.toNat else none

/-- Looks up a character in two bytes. A character below 255 uses the header of one byte. -/
def twoBytesGlyph? (data : ByteArray) (headers code : Nat) : Option Nat := do
  guard (code < 0x10000)
  let high := code / 0x100
  let low := code % 0x100
  let header ← if code < 0xff then some 0 else (nat16? data (6 + 2 * high)).map (· / 8)
  guard (header < headers)
  let place := 518 + 8 * header
  let first ← nat16? data place
  let count ← nat16? data (place + 2)
  let delta ← int16? data (place + 4)
  let offset ← nat16? data (place + 6)
  guard (first + count < 0x10000 && first ≤ low && low < first + count)
  let glyph ← nat16? data (place + 6 + offset + 2 * (low - first))
  guard (glyph ≠ 0)
  glyphNumber? (Int.tmod (glyph + delta) 0x10000)

/-- Looks up a character in the segment at `index`, which starts at the character `first`. -/
def segmentGlyph? (data : ByteArray) (count index first code : Nat) : Option Nat := do
  let delta ← int16? data (16 + 4 * count + 2 * index)
  let place := 16 + 6 * count + 2 * index
  let offset ← nat16? data place
  if offset = 0 then return ((code + delta) % 0x10000).toNat
  guard (offset ≠ 0xffff && 2 * (code - first) < 0x10000)
  let glyph ← int16? data ((place + 2 * (code - first) + offset) % 0x10000)
  guard (glyph ≠ 0)
  glyphNumber? (Int.bmod (glyph + delta) 0x10000)

/-- Looks for the segment of a character between `low` and `high` by halving. -/
def searchSegments? (data : ByteArray) (count code low high : Nat) : Option Nat := do
  if low < high then
    let index := (low + high) / 2
    let last ← nat16? data (14 + 2 * index)
    if code ≤ last then
      let first ← nat16? data (16 + 2 * count + 2 * index)
      if code < first then searchSegments? data count code low index
      else segmentGlyph? data count index first code
    else searchSegments? data count code (index + 1) high
  else none
  termination_by high - low

/-- The range that holds a character, found by halving. -/
def searchRanges? (ranges : Array GlyphRange) (code : Nat) : Option GlyphRange := do
  let isAbove (i : Nat) : Bool := ranges[i]?.any fun range => code < range.first
  let range ← ranges[halved isAbove 0 ranges.size]?
  guard (range.first ≤ code && code ≤ range.last)
  return range

/-- The glyph of a character, by its code point. -/
def glyph? (map : CharMap) (code : Nat) : Option Nat :=
  match map with
  | bytes glyphs => (byte? glyphs code).filter (· ≠ 0)
  | twoBytes data headers => twoBytesGlyph? data headers code
  | segments data count =>
    if code < 0x10000 then searchSegments? data count code 0 count else none
  | consecutive first limit glyphs =>
    if first ≤ code ∧ code ≤ limit then glyphs[code - first]? else none
  | ranges table =>
    match searchRanges? table code with
    | some range =>
      if range.glyph + code < 0x100000000 then glyphNumber? (range.glyph + code - range.first : Int)
      else none
    | none => none
  | shared table =>
    match table.find? fun range => range.first ≤ code && code ≤ range.last with
    | some range => glyphNumber? range.glyph
    | none => none
  | unmapped => none

end CharMap

end Folio
