import Folio.Font.Variation.Deltas

/-!
Deltas of advances. `AdvanceDeltas.delta?` is what the advance of a glyph changes by at the default
place of a variable font.
-/

namespace Folio

/-- The deltas of advances: a store of them, and a map from glyphs to rows. Without a map the rows
of the first set belong to the glyphs in order. -/
structure AdvanceDeltas where
  store : DeltaStore
  map : Option ByteArray

namespace AdvanceDeltas

open Bytes

/-- Reads the table of advance deltas. A map that would start behind the end has no entries. -/
def read? (table : ByteArray) : Option AdvanceDeltas := do
  guard ((← nat32? table 0) == 0x00010000)
  let store ← DeltaStore.read? (← from? table (← nat32? table 4))
  let place ← nat32? table 8
  guard (20 ≤ table.size)
  return { store, map := if place = 0 then none else some ((from? table place).getD .empty) }

/-- The set and the row of a glyph in a map. The last entry holds for all further glyphs; an entry
is a number with the row in its lower bits. -/
def entry? (map : ByteArray) (glyph : Nat) : Option (Nat × Nat) := do
  let kind ← byte? map 0
  let form ← byte? map 1
  let width := if kind = 0 then 2 else 4
  let count ← nat? map 2 width
  guard (count ≠ 0)
  let size := form / 16 % 4 + 1
  let entry ← nat? map (2 + width + size * min glyph (count - 1)) size
  let rows := Nat.pow 2 (form % 16 + 1)
  guard (entry / rows < 0x10000)
  return (entry / rows, entry % rows)

/-- What the advance of a glyph changes by, if the table says so. -/
def delta? (deltas : AdvanceDeltas) (axes glyph : Nat) : Option Binary32 := do
  let (set, row) ←
    match deltas.map with
    | some map => entry? map glyph
    | none => some (0, glyph)
  deltas.store.delta? axes set row

end AdvanceDeltas

end Folio
