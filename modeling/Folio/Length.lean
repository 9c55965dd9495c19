import Folio.Binary.Decimal

/-!
Lengths. Layout and output measure in points, 1/72 of an inch; inches and millimetres are the
units in which paper is usually described, and `Inches.toPoints` and `Millimetres.toPoints` lead
from them to points. Every operation is one rounded operation of single precision.
-/

namespace Folio

/-- A length in points. -/
structure Points where
  value : Binary32
  deriving DecidableEq, BEq, Repr, Inhabited

/-- A length in inches. -/
structure Inches where
  value : Binary32
  deriving DecidableEq, BEq, Repr, Inhabited

/-- A length in millimetres. -/
structure Millimetres where
  value : Binary32
  deriving DecidableEq, BEq, Repr, Inhabited

namespace Points

instance : Add Points := ⟨fun x y => ⟨x.value + y.value⟩⟩
instance : Sub Points := ⟨fun x y => ⟨x.value - y.value⟩⟩
instance : Neg Points := ⟨fun x => ⟨-x.value⟩⟩
instance : HMul Points Binary32 Points := ⟨fun x factor => ⟨x.value * factor⟩⟩
instance : HDiv Points Binary32 Points := ⟨fun x divisor => ⟨x.value / divisor⟩⟩
instance : HDiv Points Points Binary32 := ⟨fun x y => x.value / y.value⟩
instance (n : Nat) : OfNat Points n := ⟨⟨OfNat.ofNat n⟩⟩
instance : LT Points := ⟨fun x y => x.value < y.value⟩
instance : LE Points := ⟨fun x y => x.value ≤ y.value⟩
instance (x y : Points) : Decidable (x < y) := inferInstanceAs (Decidable (x.value < y.value))
instance (x y : Points) : Decidable (x ≤ y) := inferInstanceAs (Decidable (x.value ≤ y.value))

/-- Compares two lengths, if both are numbers. -/
def compare? (x y : Points) : Option Ordering := x.value.compare? y.value

/-- Is the length finite and greater than zero? -/
def isPositive (x : Points) : Bool := x.value.isFinite && 0 < x.value

/-- The sum of lengths from the left, starting at negative zero, which no summand is changed
by. -/
def sum (lengths : List Points) : Points := lengths.foldl (· + ·) ⟨.zero true⟩

/-- The text of a length, with its unit. -/
def text (x : Points) : String := x.value.text ++ "pt"

end Points

namespace Inches

instance : Add Inches := ⟨fun x y => ⟨x.value + y.value⟩⟩
instance : Sub Inches := ⟨fun x y => ⟨x.value - y.value⟩⟩

/-- An inch has 72 points. -/
def toPoints (x : Inches) : Points := ⟨x.value * 72⟩

end Inches

namespace Millimetres

instance : Add Millimetres := ⟨fun x y => ⟨x.value + y.value⟩⟩
instance : Sub Millimetres := ⟨fun x y => ⟨x.value - y.value⟩⟩

/-- An inch has 25.4 millimetres. -/
def toPoints (x : Millimetres) : Points := ⟨x.value * 72 / 25.4⟩

end Millimetres

end Folio
