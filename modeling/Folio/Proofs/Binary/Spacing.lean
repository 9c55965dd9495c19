import Mathlib.Tactic
import Folio.Proofs.Binary.Doubling

/-!
Taking a small number away. A difference is rounded, and so it may be the number itself. This
depends on how far below the next magnitude is, and in the middle between the two on which of them
is even (`Binary.sub_lt_self_iff`).
-/

namespace Folio

namespace Format

variable (f : Format)

/-- The distance from a magnitude to the next one, in units. -/
def spacing (rank : Nat) : Nat := f.units (rank + 1) - f.units rank

lemma units_add_spacing (rank : Nat) : f.units rank + f.spacing rank = f.units (rank + 1) :=
  Nat.add_sub_cancel' (f.units_strictMono (Nat.lt_succ_self rank)).le

/-- The distance to the next magnitude, on the grid of spacing `2 ^ shift`. -/
lemma spacing_grid {shift m : Nat} (hlow : f.block ≤ m ∨ shift = 0) (hhigh : m < 2 * f.block) :
    f.spacing (shift * f.block + m) = 2 ^ shift := by
  rw [spacing, Nat.add_assoc, f.units_grid hlow hhigh.le,
    f.units_grid (hlow.imp_left Nat.le_succ_of_le) hhigh, Nat.succ_mul, Nat.add_sub_cancel_left]

/-- **The spacing of the magnitudes** does not get less further up. -/
theorem spacing_mono : Monotone f.spacing := by
  refine monotone_nat_of_le_succ fun rank => ?_
  obtain ⟨shift, m, rfl, hlow, hhigh⟩ := f.exists_grid rank
  rw [f.spacing_grid hlow hhigh]
  rcases Nat.lt_or_ge (m + 1) (2 * f.block) with hm | hm
  · rw [Nat.add_assoc, f.spacing_grid (hlow.imp_left Nat.le_succ_of_le) hm]
  · -- the first magnitude of the next spacing
    have hrank : shift * f.block + m + 1 = (shift + 1) * f.block + f.block := by
      have hm : m + 1 = 2 * f.block := by omega
      rw [Nat.add_assoc, hm]
      ring
    rw [hrank, f.spacing_grid (.inl (le_refl _)) (by have hpos := f.block_pos; omega)]
    exact Nat.pow_le_pow_right Nat.two_pos (Nat.le_succ shift)

end Format

namespace Binary

variable {f : Format} {x y z bottom : Binary f} {rank : Nat} {b : Int}

/-- A number greater than zero has the value of a magnitude greater than zero, and its rank is its
place. -/
lemma exists_rank_of_pos (hx : x.isFinite = true) (hpos : 0 < x) : ∃ rank, rank + 1 < f.top ∧
    x.place? = some ((rank + 1 : Nat) : Int) ∧ x.inUnits? = some (f.units (rank + 1) : Int) := by
  obtain ⟨p, q, hp, hq, hpq⟩ := lt_iff_place.1 hpos
  obtain rfl := Option.some.inj (place?_zero.symm.trans hp)
  rcases x with _ | ⟨negative, rank, hrank⟩
  · simp [isFinite] at hx
  · cases negative with
    | true =>
        obtain rfl := Option.some.inj hq
        omega
    | false =>
        obtain rfl := Option.some.inj hq
        have hlt : rank < f.top := by simpa [isFinite] using hx
        obtain ⟨below, rfl⟩ : ∃ below, rank = below + 1 := ⟨rank - 1, by omega⟩
        exact ⟨below, hlt, rfl, by rw [inUnits?, if_pos hlt]; rfl⟩

/-- **Taking a positive number away** makes a number less if it is more than half of the distance to
the magnitude below it. If it is half of that, the even one of the two magnitudes is the
difference. -/
theorem sub_lt_self_iff (hrank : rank + 1 < f.top)
    (hplace : x.place? = some ((rank + 1 : Nat) : Int))
    (hx : x.inUnits? = some (f.units (rank + 1) : Int)) (hz : z.inUnits? = some b) (hb : 0 < b) :
    x - z < x ↔ (f.spacing rank : Int) < 2 * b ∨ (f.spacing rank : Int) = 2 * b ∧ rank % 2 = 0 := by
  have hspacing := f.units_add_spacing rank
  have hless : x - z < x ↔ ¬ ((rank + 1 : Nat) : Int) ≤ f.roundPlace (f.units (rank + 1) - b) := by
    rw [lt_iff_place, Int.not_le]
    constructor
    · rintro ⟨p, q, hp, hq, hpq⟩
      obtain rfl := Option.some.inj ((place?_sub hx hz).symm.trans hp)
      obtain rfl := Option.some.inj (hplace.symm.trans hq)
      exact hpq
    · intro hlt
      exact ⟨_, _, place?_sub hx hz, hplace, hlt⟩
  rw [hless]
  rcases lt_or_ge ((f.units (rank + 1) : Int) - b) 0 with hneg | hnonneg
  · -- the difference is below zero
    have hround : f.roundPlace (f.units (rank + 1) - b) ≤ 0 := by
      rw [← f.roundPlace_zero]
      exact f.roundPlace_mono hneg.le
    exact iff_of_true (by omega) (.inl (by omega))
  · obtain ⟨n, hn⟩ := Int.eq_ofNat_of_zero_le hnonneg
    rw [hn, f.roundPlace_natCast, Int.ofNat_le,
      f.succ_le_roundRank_iff Nat.one_pos (Nat.lt_of_succ_lt hrank), Nat.mul_one]
    omega

/-- If half of the distance to the magnitude below is taken away from an odd one, that magnitude is
the difference. -/
lemma place?_sub_of_half (hx : x.inUnits? = some (f.units (rank + 1) : Int))
    (hplace : x.place? = some ((rank + 1 : Nat) : Int)) (hz : z.inUnits? = some b)
    (hhalf : (f.spacing rank : Int) = 2 * b) (hb : 0 < b) (hrank : rank < f.top)
    (hless : x - z < x) : (x - z).place? = some (rank : Int) := by
  obtain ⟨p, q, hp, hq, hpq⟩ := lt_iff_place.1 hless
  obtain rfl := Option.some.inj (hplace.symm.trans hq)
  have hspacing := f.units_add_spacing rank
  have hlow : (rank : Int) ≤ f.roundPlace (f.units (rank + 1) - b) := by
    rw [← f.roundPlace_units hrank.le]
    exact f.roundPlace_mono (by omega)
  obtain rfl := Option.some.inj ((place?_sub hx hz).symm.trans hp)
  rw [place?_sub hx hz, Option.some.injEq]
  omega

/-- **Taking a number away from smaller ones.** If a positive number can be taken away from `x`
twice and makes it less each time, as long as that is not below `bottom`, then it makes every number
from `bottom` up to `x` less. -/
theorem sub_lt_self_of_le (hx : x.isFinite = true) (hz : z.isFinite = true) (hpos : 0 < z)
    (hbottom : bottom.isFinite = true) (hbpos : 0 < bottom) (hby : bottom ≤ y) (hyx : y ≤ x)
    (hone : x - z < x) (htwo : ¬ x - z - z < bottom → x - z - z < x - z) : y - z < y := by
  have hypos := lt_of_lt_of_le hbpos hby
  obtain ⟨T, hT, hxplace, hxunits⟩ := exists_rank_of_pos hx (lt_of_lt_of_le hypos hyx)
  obtain ⟨R, hR, hyplace, hyunits⟩ :=
    exists_rank_of_pos (isFinite_of_le_of_le hbottom hx hby hyx) hypos
  obtain ⟨Z, -, -, hzunits⟩ := exists_rank_of_pos hz hpos
  have hb : (0 : Int) < f.units (Z + 1) := by
    have hmono := f.units_strictMono (Nat.succ_pos Z)
    rw [f.units_zero] at hmono
    exact Int.natCast_pos.2 hmono
  have hRT : R ≤ T := by
    obtain ⟨p, q, hp, hq, hpq⟩ := le_iff_place.1 hyx
    obtain rfl := Option.some.inj (hyplace.symm.trans hp)
    obtain rfl := Option.some.inj (hxplace.symm.trans hq)
    omega
  have hspace := f.spacing_mono hRT
  rw [sub_lt_self_iff hR hyplace hyunits hzunits hb]
  rcases (sub_lt_self_iff hT hxplace hxunits hzunits hb).1 hone with hmore | ⟨hhalf, heven⟩
  · exact .inl (by omega)
  · rcases hRT.eq_or_lt with rfl | hlt
    · exact .inr ⟨hhalf, heven⟩
    · -- `x` is odd, and the difference is the magnitude below it, which is even
      have hplace := place?_sub_of_half hxunits hxplace hzunits hhalf hb (by omega) hone
      have hfinite : (x - z).isFinite = true := isFinite_iff_place.2 ⟨_, hplace, by omega, by omega⟩
      have hleft : 0 < x - z := lt_iff_place.2 ⟨_, _, place?_zero, hplace, by omega⟩
      obtain ⟨S, hS, hSplace, hSunits⟩ := exists_rank_of_pos hfinite hleft
      have hST := Option.some.inj (hplace.symm.trans hSplace)
      have hle : y ≤ x - z := le_iff_place.2 ⟨_, _, hyplace, hplace, by omega⟩
      have hsecond : x - z - z < x - z := by
        by_cases hbelow : x - z - z < bottom
        · exact lt_of_lt_of_le hbelow (le_trans hby hle)
        · exact htwo hbelow
      rcases (sub_lt_self_iff hS hSplace hSunits hzunits hb).1 hsecond with hmore | ⟨-, heven'⟩
      · have hspace' := f.spacing_mono (show R ≤ S by omega)
        exact .inl (by omega)
      · omega

end Binary

end Folio
