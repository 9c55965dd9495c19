import Folio.Binary.Basic

/-!
Decimal text of binary numbers. A finite number is written with the fewest decimal digits that round
back to it, and of those digits with the nearest ones (`Binary.shortest`). All comparisons are
between whole numbers: in units of `10 ^ -depth` the exact value is `units * 5 ^ depth`, and a
decimal reads back if `Format.roundRank` sends it to the rank it came from.
-/

namespace Folio

/-- The decimal number `digits * 10 ^ power`. -/
structure Decimal where
  digits : Nat
  power : Int
  deriving DecidableEq, Repr

/-- Which of two equally near decimals is written. -/
inductive Tie where
  /-- The one further from zero. -/
  | away
  /-- The one with an even last digit. -/
  | even
  deriving DecidableEq, Repr

namespace Binary

variable (f : Format)

/-- A unit of `2 ^ -depth`, counted in `10 ^ -depth`. -/
def decimalUnit : Nat := Nat.pow 5 f.depth

/-- Does `digits * scale`, counted in `10 ^ -depth`, round to the given rank? -/
def readsBack (rank digits scale : Nat) : Bool :=
  f.roundRank (digits * scale) (decimalUnit f) == rank

/-- The multiple of `scale` next to the exact value of a rank that reads back: the nearer of the
two neighbours if it does, else the other one. -/
def neighbour? (tie : Tie) (rank scale : Nat) : Option Nat :=
  let exact := f.units rank * decimalUnit f
  let low := exact / scale
  let twice := 2 * (exact % scale)
  let upward := scale < twice ||
    twice == scale && match tie with
      | .away => true
      | .even => low % 2 == 1
  let near := if upward then low + 1 else low
  let far := if upward then low else low + 1
  if readsBack f rank near scale then some near
  else if readsBack f rank far scale then some far
  else none

/-- Looks for a decimal on ever finer grids, from the grid `10 ^ places` down to the unit grid,
where the exact value itself lies. -/
def searchGrids (tie : Tie) (rank : Nat) : Nat → Decimal
  | 0 => ⟨f.units rank * decimalUnit f, -f.depth⟩
  | places + 1 =>
    match neighbour? f tie rank (Nat.pow 10 (places + 1)) with
    | some digits => ⟨digits, (places + 1 : Nat) - (f.depth : Int)⟩
    | none => searchGrids tie rank places

/-- The decimal with the fewest digits that reads back as the rank, and the nearest of those. -/
def shortest (tie : Tie) (rank : Nat) : Decimal :=
  let exact := f.units rank * decimalUnit f
  searchGrids f tie rank ((Nat.toDigits 10 exact).length - 1)

end Binary

/-! ### Text -/

/-- A number as digits, with a point if its power is negative. No digit is lost, and zeros fill
the places between the digits and the point. -/
def Decimal.positional (d : Decimal) : List Char :=
  let digits := Nat.toDigits 10 d.digits
  let kept := (digits.reverse.dropWhile (· == '0')).reverse
  let power := d.power + (digits.length - kept.length : Nat)
  if power ≥ 0 then kept ++ List.replicate power.toNat '0'
  else
    let places := (-power).toNat
    if places < kept.length then
      kept.take (kept.length - places) ++ '.' :: kept.drop (kept.length - places)
    else '0' :: '.' :: (List.replicate (places - kept.length) '0' ++ kept)

namespace Binary

variable {f : Format}

/-- The text of a magnitude: its shortest digits, never with an exponent. -/
def magnitudeText (f : Format) (tie : Tie) (rank : Nat) : List Char :=
  if rank = 0 then ['0']
  else if rank = f.top then ['i', 'n', 'f']
  else (shortest f tie rank).positional

/-- The text of a number. Whole numbers have no point, and zero keeps its sign. -/
def text : Binary f → String
  | .nan => "NaN"
  | .number negative rank _ =>
    String.ofList ((if negative then ['-'] else []) ++ magnitudeText f .away rank)

end Binary

end Folio
