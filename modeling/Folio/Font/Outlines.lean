import Folio.Font.Bytes

/-!
Outlines of glyphs, as far as the number of their points. `Outlines.pointCount` is the number of
points of a simple glyph, or the number of parts of a glyph that is put together from others.
-/

namespace Folio

/-- The outlines of the glyphs of a font: where each one starts and the last one ends. -/
structure Outlines where
  data : ByteArray
  places : Array Nat

namespace Outlines

open Bytes

/-- Reads the places of the outlines. In the short form they are halved. A table with fewer places
than glyphs counts as far as it goes. -/
def read? (places data : ByteArray) (glyphs : Nat) (isLong : Bool) : Option Outlines := do
  let size := if isLong then 4 else 2
  let available := places.size / size
  guard (available < 0x10000)
  let numbers ← nats? places 0 (min (min (glyphs + 1) 0xffff) available) size
  return { data, places := if isLong then numbers else numbers.map (2 * ·) }

/-- The bytes of a glyph, if it has an outline. -/
def glyph? (outlines : Outlines) (glyph : Nat) : Option ByteArray := do
  let start ← outlines.places[glyph]?
  let stop ← outlines.places[glyph + 1]?
  guard (glyph < 0xffff && start < stop)
  slice? outlines.data start (stop - start)

/-- How many bytes the numbers of points take on one axis. -/
structure Extent where
  across : Nat
  up : Nat
  deriving DecidableEq, Repr

/-- The extent of one point, by its flags: a short number takes one byte, a repeated one none, and
any other one two. -/
def Extent.ofFlags (flags : Nat) : Extent :=
  let size (short same : Nat) :=
    if flags / short % 2 = 1 then 1 else if flags / same % 2 = 1 then 0 else 2
  ⟨size 0x02 0x10, size 0x04 0x20⟩

/-- Reads the flags of `left` points and sums up their extents. Flags may hold for several
points. Also answers where the flags end. -/
def readFlags? (data : ByteArray) (place left : Nat) (sum : Extent) : Option (Extent × Nat) := do
  if left = 0 then return (sum, place)
  let flags ← byte? data place
  let isRepeated := flags / 0x08 % 2 == 1
  let further ← if isRepeated then byte? data (place + 1) else some 0
  if left ≤ further then none
  else
    let one := Extent.ofFlags flags
    let sum := ⟨sum.across + (further + 1) * one.across, sum.up + (further + 1) * one.up⟩
    readFlags? data (if isRepeated then place + 2 else place + 1) (left - (further + 1)) sum
  termination_by left

/-- The number of points of a simple glyph with that many contours: one more than the last point
of the last contour. A glyph of one point has none. -/
def simplePointCount? (data : ByteArray) (contours : Nat) : Option Nat := do
  let ends ← nats? data 0 contours 2
  let count := (← ends.back?) + 1
  guard (count < 0x10000)
  if count = 1 then return 0
  let place := 2 * contours + 2 + (← nat16? data (2 * contours))
  let (extent, place) ← readFlags? data place count ⟨0, 0⟩
  guard (place + extent.across + extent.up ≤ data.size)
  return count

/-- The number of bytes of a part of a glyph, by its flags: a glyph, an offset and a matrix. -/
def partSize (flags : Nat) : Nat :=
  let has (flag : Nat) : Bool := flags / flag % 2 == 1
  4 + (if has 0x02 then if has 0x01 then 4 else 2 else 0) +
    (if has 0x80 then 8 else if has 0x40 then 4 else if has 0x08 then 2 else 0)

/-- The number of parts from a place on. Each one tells whether another one follows. -/
def partCount (data : ByteArray) (place : Nat) : Nat :=
  match nat16? data place with
  | none => 0
  | some flags =>
    let size := partSize flags
    if _h : 0 < size ∧ place + size ≤ data.size then
      if flags / 0x20 % 2 = 1 then 1 + partCount data (place + size) else 1
    else 0
  termination_by data.size - place

/-- The number of points that deltas can move, by the bytes of a glyph. -/
def pointCount? (data : ByteArray) : Option Nat := do
  let contours ← int16? data 0
  let data ← from? data 10
  if 0 < contours then simplePointCount? data contours.toNat
  else if contours < 0 then return partCount data 0 % 0x10000
  else none

/-- The number of points of a glyph that deltas can move. A glyph that cannot be read has none. -/
def pointCount (outlines : Outlines) (glyph : Nat) : Nat :=
  ((outlines.glyph? glyph).bind pointCount?).getD 0

end Outlines

end Folio
