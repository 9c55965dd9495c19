import Folio.Font.Variation.Deltas

/-!
Deltas of points. Behind the points of its outline every glyph has a point at its right side, and
`PointDeltas.rightDelta?` is what that point moves by at the default place of a variable font.

The deltas of a glyph come in groups, each bound to a region of the axes. A group packs the numbers
of its points (`unpackPoints?`) and the deltas of them (`unpackDeltas`).
-/

namespace Folio

/-- The deltas of the points of all glyphs: where those of each glyph start, and peaks of regions
that several groups share. -/
structure PointDeltas where
  data : ByteArray
  axisCount : Nat
  peaks : Array Int
  places : Array Nat

namespace PointDeltas

open Bytes

/-- Reads the table of point deltas. In the short form the places are halved. -/
def read? (table : ByteArray) : Option PointDeltas := do
  guard ((← nat32? table 0) == 0x00010000)
  let axisCount ← nat16? table 4
  let peakCount := (← nat16? table 6) * axisCount
  let glyphs ← nat16? table 12
  let isLong := (← nat16? table 14) % 2 == 1
  guard (axisCount ≠ 0 && peakCount < 0x10000 && glyphs + 1 < 0x10000)
  let peaks ← ints16? table (← nat32? table 8) peakCount
  let data ← from? table (← nat32? table 16)
  let places ← nats? table 20 (glyphs + 1) (if isLong then 4 else 2)
  return { data, axisCount, peaks, places := if isLong then places else places.map (2 * ·) }

/-! ### Packed numbers -/

/-- Whole numbers of one byte or two. An odd last byte does not count. -/
def numbersOf (isWide : Bool) : List UInt8 → List Int
  | [] => []
  | a :: rest =>
    if isWide then
      match rest with
      | [] => []
      | b :: rest => Int.bmod (a.toNat * 0x100 + b.toNat) 0x10000 :: numbersOf isWide rest
    else Int.bmod a.toNat 0x100 :: numbersOf isWide rest

/-- Unpacks deltas: runs of zeros, of wide numbers and of narrow ones. -/
def unpackDeltas : List UInt8 → List Int
  | [] => []
  | control :: rest =>
    let count := control.toNat % 0x40 + 1
    let isWide := control.toNat / 0x40 % 2 == 1
    if control.toNat / 0x80 = 1 then List.replicate count 0 ++ unpackDeltas rest
    else
      let size := if isWide then 2 * count else count
      numbersOf isWide (rest.take size) ++ unpackDeltas (rest.drop size)
  termination_by data => data.length

/-- Unpacks runs of `left` numbers of points, and answers what follows them. -/
def unpackRuns? (left : Nat) (data : List UInt8) : Option (List Nat × List UInt8) :=
  if left = 0 then some ([], data)
  else
    match data with
    | [] => none
    | control :: rest => do
      let count := control.toNat % 0x80 + 1
      let isWide := control.toNat / 0x80 == 1
      let size := if isWide then 2 * count else count
      if left < count ∨ rest.length < size then none
      else
        let modulus := if isWide then 0x10000 else 0x100
        let steps := (numbersOf isWide (rest.take size)).map fun n => (n % modulus).toNat
        let (further, rest) ← unpackRuns? (left - count) (rest.drop size)
        return (steps ++ further, rest)
  termination_by left

/-- The points that the steps between them lead to. The first step is a point; any later one leads
on by one at least. -/
def pointsOf : List Nat → List Nat
  | [] => []
  | first :: steps => first :: further first steps
where
  further (point : Nat) : List Nat → List Nat
    | [] => []
    | step :: steps => (point + max 1 step) :: further (point + max 1 step) steps

/-- Unpacks the numbers of points, with none for all points, and answers what follows them. -/
def unpackPoints? : List UInt8 → Option (Option (List Nat) × List UInt8)
  | [] => none
  | first :: data => do
    let (count, data) ←
      if first.toNat / 0x80 = 1 then
        match data with
        | [] => none
        | second :: data => some (first.toNat % 0x80 * 0x100 + second.toNat, data)
      else some (first.toNat, data)
    if count = 0 then return (none, data)
    let (steps, rest) ← unpackRuns? count data
    return (some (pointsOf steps), rest)

/-! ### Groups -/

/-- Which of the deltas of a group belong to a point, by the ascending points that the group lists.
All points after the last one go on with the deltas that are left. -/
def deltaIndex? (point : Nat) : List Nat → Option Nat
  | [] => none
  | [last] => if last ≤ point then some (point - last) else none
  | listed :: points => if listed = point then some 0 else (deltaIndex? point points).map (· + 1)

/-- What a group moves one of `count` points across by. The deltas across come first, those up
after them; a delta counts if both are there. -/
def groupDelta (points : Option (List Nat)) (count point : Nat) (deltas : List Int) : Int :=
  let (index, length) :=
    match points with
    | none => (some point, count)
    | some points => (deltaIndex? point points, points.length)
  match index with
  | none => 0
  | some index =>
    match deltas[index]?, deltas[length + index]? with
    | some across, some _ => across
    | _, _ => 0

/-- Do ranges of the axes hold the default place? Without limits a peak reaches to the default
place and no further. -/
def holdDefault (peaks : Array Int) (limits : Option (Array Int × Array Int)) : Bool :=
  (List.range peaks.size).all fun axis =>
    let peak := peaks.getD axis 0
    match limits with
    | none => peak == 0
    | some (starts, stops) => AxisRange.holdsDefault ⟨starts.getD axis 0, peak, stops.getD axis 0⟩

/-- Adds up what the groups move a point by. The head of the next group stands at `head`, and what
it packs at `body`. -/
def sumGroups? (deltas : PointDeltas) (data : ByteArray) (shared : Option (List Nat))
    (points point head body : Nat) (sum : Binary32) : Nat → Option Binary32
  | 0 => some sum
  | groups + 1 => do
    let axes := deltas.axisCount
    let size ← nat16? data head
    let form ← nat16? data (head + 2)
    let ownPeaks := form / 0x8000 % 2 == 1
    let ownLimits := form / 0x4000 % 2 == 1
    let ownPoints := form / 0x2000 % 2 == 1
    let limitPlace := if ownPeaks then head + 4 + 2 * axes else head + 4
    let next := if ownLimits then limitPlace + 4 * axes else limitPlace
    let first := form % 0x1000 * axes
    guard (ownPeaks || first + axes ≤ deltas.peaks.size)
    let peaks ←
      if ownPeaks then ints16? data (head + 4) axes
      else some (deltas.peaks.extract first (first + axes))
    let limits ←
      if ownLimits then do
        let starts ← ints16? data limitPlace axes
        let stops ← ints16? data (limitPlace + 2 * axes) axes
        pure (some (starts, stops))
      else pure none
    if holdDefault peaks limits then
      let packed := (← slice? data body size).data.toList
      let (own, rest) ← if ownPoints then unpackPoints? packed else some (shared, packed)
      let delta := groupDelta own points point (unpackDeltas rest)
      sumGroups? deltas data shared points point next (body + size) (sum + .ofInt delta) groups
    else sumGroups? deltas data shared points point next (body + size) sum groups

/-- The greatest number of groups that a glyph can have. -/
def greatestGroupCount : Nat := 32

/-- What the point at the right side of a glyph moves by, if the table says so. The outline of the
glyph has `points` points; four more points follow, and the one at the right side is the second of
them. With too many groups nothing moves. -/
def rightDelta? (deltas : PointDeltas) (axes glyph points : Nat) : Option Binary32 := do
  guard (axes = deltas.axisCount && glyph + 1 < 0x10000)
  let start ← deltas.places[glyph]?
  let stop ← deltas.places[glyph + 1]?
  if start = stop then return 0
  guard (start ≤ stop)
  let data ← slice? deltas.data start (stop - start)
  let form ← nat16? data 0
  let groups := form % 0x1000
  guard (groups ≠ 0 && groups ≤ greatestGroupCount && points + 4 < 0x10000)
  let packed := (← from? data (← nat16? data 2)).data.toList
  let (shared, rest) ← if form / 0x8000 = 1 then unpackPoints? packed else some (none, packed)
  sumGroups? deltas data shared (points + 4) (points + 1) 4 (data.size - rest.length) 0 groups

end PointDeltas

end Folio
