import Folio.Font.Variation.Deltas

/-!
Deltas of the heights of lines. `HeightDeltas.varied` is a height at the default place of a
variable font.
-/

namespace Folio

/-- A height that can have deltas. -/
inductive HeightKind where
  | typographicAscender
  | typographicDescender
  | typographicLineGap
  | windowsAscender
  | windowsDescender
  deriving DecidableEq, Repr

/-- The tag of a height in the table of its deltas. -/
def HeightKind.tag : HeightKind → Nat
  | typographicAscender => 0x68617363
  | typographicDescender => 0x68647363
  | typographicLineGap => 0x686c6770
  | windowsAscender => 0x68636c61
  | windowsDescender => 0x68636c64

/-- Where the deltas of the height with a tag stand. -/
structure HeightRecord where
  tag : Nat
  set : Nat
  row : Nat
  deriving DecidableEq, Repr

/-- The deltas of heights: a store of them, and records in the order of their tags. -/
structure HeightDeltas where
  store : DeltaStore
  records : Array HeightRecord

namespace HeightDeltas

open Bytes

/-- Reads the table of height deltas. -/
def read? (table : ByteArray) : Option HeightDeltas := do
  guard ((← nat32? table 0) == 0x00010000)
  guard ((← nat16? table 6) == 8)
  let count ← nat16? table 8
  let place ← nat16? table 10
  guard (count ≠ 0 && place ≠ 0 && room table 12 count 8)
  let store ← DeltaStore.read? (← from? table place)
  let records := (Array.range count).map fun i =>
    let number (offset size : Nat) := (nat? table (12 + 8 * i + offset) size).getD 0
    ⟨number 0 4, number 4 2, number 6 2⟩
  return { store, records }

/-- What a height changes by, if the table says so. The record is found by halving. -/
def delta? (deltas : HeightDeltas) (axes : Nat) (kind : HeightKind) : Option Binary32 := do
  let records := deltas.records
  let isAbove (i : Nat) : Bool := records[i]?.any fun record => kind.tag < record.tag
  let record ← records[halved isAbove 0 records.size]?
  guard (record.tag == kind.tag)
  deltas.store.delta? axes record.set record.row

/-- The height after its change, without its places. A change that leads out of the range of
heights does not count. -/
def varied (deltas : HeightDeltas) (axes : Nat) (kind : HeightKind) (height : Int) : Int :=
  match deltas.delta? axes kind with
  | none => height
  | some delta =>
    let sum : Int := ((.ofInt height : Binary32) + delta).truncate (-0x10000) 0x10000
    if -0x8000 ≤ sum ∧ sum < 0x8000 then sum else height

end HeightDeltas

end Folio
