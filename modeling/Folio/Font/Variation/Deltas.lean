import Folio.Binary.Basic
import Folio.Font.Bytes

/-!
Deltas of a variable font.

The measures of a variable font change along its axes. Here a font is measured at its default
place, where every axis stands at zero. A delta is bound to a region of the axes; at the default
place it counts in full or not at all (`AxisRange.holdsDefault`), and the deltas of one measure
that count are added (`DeltaStore.delta?`).
-/

namespace Folio

/-- The reach of a delta on one axis: it starts, is in full force at the peak, and ends. -/
structure AxisRange where
  start : Int
  peak : Int
  stop : Int
  deriving DecidableEq, Repr

namespace AxisRange

/-- Does the range leave the default place alone? A range with its peak there does, and so does
one that does not bind its axis: its numbers are out of order, or lie on both sides of the default
place. -/
def holdsDefault (range : AxisRange) : Bool :=
  range.peak == 0 || range.peak < range.start || range.stop < range.peak ||
    range.start < 0 && 0 < range.stop

end AxisRange

open Bytes

/-- The greatest number of axes that count. -/
def greatestAxisCount : Nat := 64

/-- The number of axes of a font. A font without axes is not variable. -/
def readAxisCount? (table : ByteArray) : Option Nat := do
  guard ((← nat32? table 0) == 0x00010000)
  let place ← nat16? table 4
  let count ← nat16? table 8
  guard (count ≠ 0 && room table place count 20)
  return min count greatestAxisCount

/-- Sets of deltas. A set holds rows, one for each measure, and the regions of its columns; a
region is as many ranges as there are axes. -/
structure DeltaStore where
  data : ByteArray
  places : Array Nat
  axisCount : Nat
  ranges : Array AxisRange

namespace DeltaStore

/-- Reads a store: where its sets start, and its regions. -/
def read? (data : ByteArray) : Option DeltaStore := do
  guard ((← nat16? data 0) == 1)
  let place ← nat32? data 2
  let places ← nats? data 8 (← nat16? data 6) 4
  let axisCount ← nat16? data place
  let regionCount ← nat16? data (place + 2)
  guard (regionCount * axisCount < 0x10000)
  let numbers ← ints16? data (place + 4) (3 * (regionCount * axisCount))
  let ranges := (Array.range (regionCount * axisCount)).map fun i =>
    let number (k : Nat) := numbers.getD (3 * i + k) 0
    ⟨number 0, number 1, number 2⟩
  return { data, places, axisCount, ranges }

/-- The range of a region on an axis. The place of a range is a number of sixteen bits and wraps
around. -/
def range? (store : DeltaStore) (region axis : Nat) : Option AxisRange :=
  store.ranges[(region * store.axisCount + axis) % 0x10000]?

/-- Does the region hold the default place of that many axes? -/
def holdsDefault (store : DeltaStore) (axes region : Nat) : Bool :=
  (List.range axes).all fun axis => (store.range? region axis).any AxisRange.holdsDefault

/-- The sum of the deltas that count in a row of a set. The first deltas of a row are twice as wide
as the others. The length of a row is a number of sixteen bits and wraps around, too. -/
def delta? (store : DeltaStore) (axes set row : Nat) : Option Binary32 := do
  let data := store.data
  let place ← store.places[set]?
  let rows ← nat16? data place
  let form ← nat16? data (place + 2)
  let count ← nat16? data (place + 4)
  let regions ← nats? data (place + 6) count 2
  let size := if form / 0x8000 = 1 then 2 else 1
  let wide := form % 0x8000
  guard (row < rows && wide ≤ count)
  let start := place + 6 + 2 * count + row * (size * (wide + count) % 0x10000)
  let deltas ← (List.range count).mapM fun i =>
    if i < wide then int? data (start + 2 * size * i) (2 * size)
    else int? data (start + size * (wide + i)) size
  return (deltas.zip regions.toList).foldl (fun sum (delta, region) =>
    if store.holdsDefault axes region then sum + .ofInt delta else sum) 0

end DeltaStore

end Folio
