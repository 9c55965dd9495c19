/-!
Numbers of the objects of a PDF file.

An `ObjectIds` hands out the numbers 1, 2, 3, … and remembers which object each of them belongs
to. `ObjectIds.generate` takes the next number for an object, `ObjectIds.find?` looks its number
up, and `ObjectIds.obtain` looks it up or takes the next one.
-/

namespace Folio

/-- What an object of a file is for. -/
inductive ObjectKey where
  | catalog
  | info
  | pageTree
  | font
  | page (index : Nat)
  | content (index : Nat)
  deriving DecidableEq, Repr

/-- The numbers handed out so far, the last one first, and the next number. -/
structure ObjectIds where
  held : List (ObjectKey × Nat) := []
  next : Nat := 1
  deriving DecidableEq, Repr

namespace ObjectIds

/-- Nothing handed out yet. -/
def start : ObjectIds := {}

/-- The number handed out last for an object. -/
def find? (ids : ObjectIds) (key : ObjectKey) : Option Nat := ids.held.lookup key

/-- Hands out the next number. -/
def generate (key : ObjectKey) : StateM ObjectIds Nat := fun ids =>
  (ids.next, ⟨(key, ids.next) :: ids.held, ids.next + 1⟩)

/-- The number of an object, a new one if it has none. -/
def obtain (key : ObjectKey) : StateM ObjectIds Nat := fun ids =>
  match ids.find? key with
  | some id => (id, ids)
  | none => generate key ids

end ObjectIds

end Folio
