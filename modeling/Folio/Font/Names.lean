import Folio.Font.Bytes
import Folio.Text.Utf16

/-!
Names of a font. `FontName.ofTable` lists the names that are written as text, and
`FontName.find?` is the text of the first with a given identifier.
-/

namespace Folio

/-- One name of a font: what kind of name it is, and its units of text. -/
structure FontName where
  kind : Nat
  units : List Nat
  deriving DecidableEq, Repr

namespace FontName

open Bytes

/-- The kind of family names. -/
def family : Nat := 1

/-- The kind of full names. -/
def full : Nat := 4

/-- The numbers of two bytes in a text. An odd last byte does not count. -/
def unitsOf (text : ByteArray) : List Nat :=
  (List.range (text.size / 2)).filterMap fun i => nat16? text (2 * i)

/-- Is a name of this platform and encoding written in units of sixteen bits? -/
def isText (platform encoding : Nat) : Bool :=
  platform == 0 || platform == 3 && (encoding == 0 || encoding == 1)

/-- The names among the records of a table from the given one on. The first record that cannot be
read is the last one looked at. -/
def readRecords (table storage : ByteArray) (place : Nat) : Nat → List FontName
  | 0 => []
  | count + 1 =>
    let found := do
      let platform ← nat16? table place
      let encoding ← nat16? table (place + 2)
      let kind ← nat16? table (place + 6)
      let length ← nat16? table (place + 8)
      let offset ← nat16? table (place + 10)
      guard (platform ≤ 4)
      return (platform, encoding, kind, ← slice? storage offset length)
    match found with
    | none => []
    | some (platform, encoding, kind, text) =>
      let rest := readRecords table storage (place + 12) count
      if isText platform encoding then ⟨kind, unitsOf text⟩ :: rest else rest

/-- Where the records of a table start. A table of the second version holds tags of languages
first. -/
def recordStart? (table : ByteArray) : Option Nat := do
  match ← nat16? table 0 with
  | 0 => return 6
  | 1 =>
    let tags ← nat16? table 6
    guard (4 * tags < 0x10000)
    return 8 + 4 * tags
  | _ => none

/-- The names of a table, in order. -/
def ofTable (table : ByteArray) : List FontName :=
  let found := do
    let start ← recordStart? table
    let count ← nat16? table 2
    let offset ← nat16? table 4
    guard (room table start count 12)
    let storage ← from? table (max offset (start + 12 * count))
    return readRecords table storage start count
  found.getD []

/-- The text of the first name of a kind, unless it is not well formed. -/
def find? (names : List FontName) (kind : Nat) : Option String := do
  let name ← names.find? (·.kind == kind)
  return String.ofList (← Text.ofUnits? name.units)

end FontName

end Folio
