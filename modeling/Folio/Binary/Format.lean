/-!
Binary interchange formats, and rounding onto their grid.

A format has `fraction` stored bits and `exponent` exponent bits. Its finite magnitudes, in
increasing order, are numbered by their **rank**: the rank is the bit pattern without the sign,
and the last rank, `Format.top`, is infinity. `Format.units` is the magnitude of a rank, and
`Format.roundRank` the rank nearest to a fraction of units, ties to the even rank.
-/

namespace Folio

/-- A binary interchange format, by the widths of its two fields. -/
structure Format where
  /-- Number of stored bits of the significand. -/
  fraction : Nat
  /-- Number of bits of the exponent. -/
  exponent : Nat
  deriving DecidableEq, Repr

namespace Format

/-- The format of 32 bits. -/
def single : Format := ⟨23, 8⟩

/-- The format of 64 bits. -/
def double : Format := ⟨52, 11⟩

/-- The spacing of the magnitudes doubles after each block of this many ranks. -/
def block (f : Format) : Nat := Nat.pow 2 f.fraction

/-- The rank of infinity, one above the ranks of the finite magnitudes. -/
def top (f : Format) : Nat := (Nat.pow 2 f.exponent - 1) * f.block

/-- The least positive magnitude is `2 ^ -depth`. -/
def depth (f : Format) : Nat := Nat.pow 2 (f.exponent - 1) - 2 + f.fraction

/-- The number one in units of `2 ^ -depth`. -/
def one (f : Format) : Nat := Nat.pow 2 f.depth

/-- The magnitude of a rank, in units of `2 ^ -depth`. The ranks of the first block are the
subnormal magnitudes, one unit apart; the second block has the same spacing, and every further
one doubles it. -/
def units (f : Format) (rank : Nat) : Nat :=
  match rank / f.block with
  | 0 => rank
  | shift + 1 => (f.block + rank % f.block) <<< shift

/-- The greatest rank whose magnitude is at most `n` units. -/
def floorRank (f : Format) (n : Nat) : Nat :=
  let shift := n.log2 - f.fraction
  shift * f.block + n >>> shift

/-- The rank nearest to `num / den` units. A tie goes to the even rank, and what lies beyond the
last finite magnitude by half a step or more is infinity. -/
def roundRank (f : Format) (num den : Nat) : Nat :=
  let low := f.floorRank (num / den)
  let below := 2 * (num - f.units low * den)
  let step := (f.units (low + 1) - f.units low) * den
  let nearest :=
    if below < step then low
    else if step < below then low + 1
    else low + low % 2
  min nearest f.top

theorem roundRank_le_top (f : Format) (num den : Nat) : f.roundRank num den ≤ f.top :=
  Nat.min_le_right _ _

end Format

end Folio
