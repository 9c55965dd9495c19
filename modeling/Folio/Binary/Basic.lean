import Folio.Binary.Format

/-!
Binary floating-point numbers.

A `Binary f` is not a number, or a sign and a rank of the format `f`. Every operation takes the
exact value of its operands and rounds it once, to nearest with ties to even (`Binary.rounded`).

Two equalities are kept apart: `=` tells apart the two zeros and holds of the value that is not a
number, while `==`, `<` and `≤` compare as numbers do.
-/

namespace Folio

/-- A floating-point number of the format `f`. Rank `f.top` is infinity. -/
inductive Binary (f : Format) where
  /-- The value that is not a number. -/
  | nan
  /-- The magnitude of the given rank, with a sign. -/
  | number (negative : Bool) (rank : Nat) (rank_le_top : rank ≤ f.top)
  deriving DecidableEq, Repr

/-- Single precision: the numbers of all lengths and colours. -/
abbrev Binary32 := Binary Format.single

/-- Double precision: the numbers of settings files. -/
abbrev Binary64 := Binary Format.double

namespace Binary

variable {f : Format}

/-! ### Building and taking apart -/

/-- Zero with the given sign. -/
def zero (negative : Bool) : Binary f := .number negative 0 (Nat.zero_le _)

/-- Infinity with the given sign. -/
def infinity (negative : Bool) : Binary f := .number negative f.top (Nat.le_refl _)

instance : Inhabited (Binary f) := ⟨zero false⟩

/-- The number nearest to `num / den` units, with the given sign. -/
def rounded (negative : Bool) (num den : Nat) : Binary f :=
  .number negative (f.roundRank num den) (f.roundRank_le_top num den)

/-- The number with this bit pattern. Every pattern past infinity is the one `nan`. -/
def ofBits (f : Format) (bits : Nat) : Binary f :=
  let half := f.block * Nat.pow 2 f.exponent
  if h : bits % half ≤ f.top then .number (bits / half % 2 == 1) (bits % half) h else .nan

/-- Is the value a number other than the infinities? -/
def isFinite : Binary f → Bool
  | .nan => false
  | .number _ rank _ => rank < f.top

/-- Is the value the one that is not a number? -/
def isNaN : Binary f → Bool
  | .nan => true
  | .number .. => false

/-- The place of a number on the line: its rank with its sign. The two zeros share a place. -/
def place? : Binary f → Option Int
  | .nan => none
  | .number true rank _ => some (-rank)
  | .number false rank _ => some rank

/-- The exact value of a finite number in units, with its sign. -/
def signedUnits (f : Format) (negative : Bool) (rank : Nat) : Int :=
  if negative then -(f.units rank : Int) else f.units rank

/-! ### Comparison -/

/-- Compares two values as numbers: there is no answer if one of them is not a number. -/
def compare? (x y : Binary f) : Option Ordering := do
  return compare (← x.place?) (← y.place?)

/-- Strict order of numbers. -/
def lt (x y : Binary f) : Bool :=
  match x.place?, y.place? with
  | some a, some b => a < b
  | _, _ => false

/-- Order of numbers, false if one of the two is not a number. -/
def le (x y : Binary f) : Bool :=
  match x.place?, y.place? with
  | some a, some b => a ≤ b
  | _, _ => false

instance : LT (Binary f) := ⟨fun x y => x.lt y = true⟩
instance : LE (Binary f) := ⟨fun x y => x.le y = true⟩
instance (x y : Binary f) : Decidable (x < y) := inferInstanceAs (Decidable (x.lt y = true))
instance (x y : Binary f) : Decidable (x ≤ y) := inferInstanceAs (Decidable (x.le y = true))

/-- Equality of numbers: the two zeros are equal, and what is not a number equals nothing. -/
def sameNumber (x y : Binary f) : Bool :=
  match x.place?, y.place? with
  | some a, some b => a == b
  | _, _ => false

instance : BEq (Binary f) := ⟨sameNumber⟩

/-! ### Arithmetic -/

/-- The number with the other sign. -/
def neg : Binary f → Binary f
  | .nan => .nan
  | .number negative rank h => .number (!negative) rank h

/-- The exact sum, rounded once. A sum of zero is negative only if both summands are; opposite
infinities have no sum. -/
def add : Binary f → Binary f → Binary f
  | .number s a ha, .number t b hb =>
    if a = f.top then
      if b = f.top then if s = t then .number s a ha else .nan else .number s a ha
    else if b = f.top then .number t b hb
    else
      let sum := signedUnits f s a + signedUnits f t b
      if sum = 0 then zero (s && t) else rounded (decide (sum < 0)) sum.natAbs 1
  | _, _ => .nan

/-- The sum with the number of the other sign. -/
def sub (x y : Binary f) : Binary f := x.add y.neg

/-- The exact product, rounded once. Infinity times zero is not a number. -/
def mul : Binary f → Binary f → Binary f
  | .number s a _, .number t b _ =>
    if a = f.top then if b = 0 then .nan else infinity (s ^^ t)
    else if b = f.top then if a = 0 then .nan else infinity (s ^^ t)
    else rounded (s ^^ t) (f.units a * f.units b) f.one
  | _, _ => .nan

/-- The exact quotient, rounded once. A finite number over zero is infinity; zero over zero and
infinity over infinity are not numbers. -/
def div : Binary f → Binary f → Binary f
  | .number s a _, .number t b _ =>
    if a = f.top then if b = f.top then .nan else infinity (s ^^ t)
    else if b = f.top then zero (s ^^ t)
    else if b = 0 then if a = 0 then .nan else infinity (s ^^ t)
    else rounded (s ^^ t) (f.units a * f.one) (f.units b)
  | _, _ => .nan

instance : Neg (Binary f) := ⟨neg⟩
instance : Add (Binary f) := ⟨add⟩
instance : Sub (Binary f) := ⟨sub⟩
instance : Mul (Binary f) := ⟨mul⟩
instance : Div (Binary f) := ⟨div⟩

/-- The value held between two bounds. What is not a number stays as it is. -/
def clamp (x low high : Binary f) : Binary f :=
  if x < low then low else if high < x then high else x

/-! ### Other formats and whole numbers -/

/-- The nearest number of another format. -/
def convert (g : Format) : Binary f → Binary g
  | .nan => .nan
  | .number negative rank _ =>
    if rank = f.top then infinity negative
    else rounded negative (f.units rank * g.one) f.one

/-- The number nearest to a whole number. -/
def ofInt (n : Int) : Binary f := rounded (decide (n < 0)) (n.natAbs * f.one) 1

/-- The number nearest to a natural number. -/
def ofNat (n : Nat) : Binary f := rounded false (n * f.one) 1

/-- The number nearest to `mantissa * 10 ^ power`. Powers so large or so small that they decide
the answer alone are not computed. -/
def ofDecimal (negative : Bool) (mantissa : Nat) (power : Int) : Binary f :=
  if mantissa = 0 then zero negative
  else if power > Nat.pow 2 f.exponent then infinity negative
  else if power + (mantissa.log2 + 1) < -(f.depth : Int) then zero negative
  else if power ≥ 0 then rounded negative (mantissa * Nat.pow 10 power.toNat * f.one) 1
  else rounded negative (mantissa * f.one) (Nat.pow 10 (-power).toNat)

instance (n : Nat) : OfNat (Binary f) n := ⟨ofNat n⟩

instance : OfScientific (Binary f) :=
  ⟨fun mantissa downward power => ofDecimal false mantissa (if downward then -power else power)⟩

/-- The whole number toward zero, held between `low` and `high`; zero for what is not a number. -/
def truncate (low high : Int) : Binary f → Int
  | .nan => 0
  | .number negative rank _ =>
    let whole : Int := f.units rank / f.one
    max low (min high (if negative then -whole else whole))

/-- The nearest natural number, a half going up; zero for negative numbers and for what is not a
number. Infinity has the place after the last finite magnitude. -/
def nearestNat : Binary f → Nat
  | .number false rank _ => (2 * f.units rank + f.one) / (2 * f.one)
  | _ => 0

end Binary

end Folio
