import Mathlib.Tactic
import Folio.Proofs.Binary.Order

/-!
A number is less than half of another one exactly if something is left when it is taken away twice,
also in single precision, where both are rounded (`Binary.pos_sub_sub_iff`). The two agree since the
spacing of the magnitudes does not get narrower from a magnitude to its double
(`Format.exists_units_double`).
-/

namespace Folio

namespace Format

variable (f : Format) {rank other : Nat}

/-- **Twice a magnitude is a magnitude**, and the next one after that leaves room for the magnitude
and for the one after it. -/
lemma exists_units_double (rank : Nat) : ∃ double, f.units double = 2 * f.units rank ∧
    f.units rank + f.units (rank + 1) ≤ f.units (double + 1) := by
  obtain ⟨shift, m, rfl, hlow, hhigh⟩ := f.exists_grid rank
  have hrank := f.units_grid hlow hhigh.le
  have hnext := f.units_grid (hlow.imp_left Nat.le_succ_of_le) (Nat.succ_le_of_lt hhigh)
  rcases Nat.lt_or_ge m f.block with hm | hm
  · -- the double of a magnitude of the first block has the same spacing
    obtain rfl : shift = 0 := hlow.resolve_left (by omega)
    have hdouble := f.units_grid (.inr (Eq.refl 0)) (show 2 * m ≤ 2 * f.block by omega)
    have hafter := f.units_grid (.inr (Eq.refl 0)) (show 2 * m + 1 ≤ 2 * f.block by omega)
    refine ⟨0 * f.block + 2 * m, ?_, ?_⟩
    · rw [hdouble, hrank]
      ring
    · rw [Nat.add_assoc, Nat.add_assoc, hrank, hnext, hafter]
      omega
  · -- any other one has half the spacing of its double
    have hlow' : f.block ≤ m ∨ shift + 1 = 0 := .inl hm
    have hdouble := f.units_grid hlow' hhigh.le
    have hafter := f.units_grid (hlow'.imp_left Nat.le_succ_of_le) (Nat.succ_le_of_lt hhigh)
    refine ⟨(shift + 1) * f.block + m, ?_, ?_⟩
    · rw [hdouble, hrank]
      ring
    · rw [Nat.add_assoc, Nat.add_assoc, hrank, hnext, hafter]
      calc m * 2 ^ shift + (m + 1) * 2 ^ shift
          ≤ (m + 1) * 2 ^ shift + (m + 1) * 2 ^ shift :=
            Nat.add_le_add_right (Nat.mul_le_mul_right _ (Nat.le_succ m)) _
        _ = (m + 1) * 2 ^ (shift + 1) := by ring

/-- A magnitude that is more than twice another one leaves room for that and for the one after
it. -/
lemma units_add_succ_le (h : 2 * f.units rank < f.units other) :
    f.units rank + f.units (rank + 1) ≤ f.units other := by
  obtain ⟨double, hdouble, hroom⟩ := f.exists_units_double rank
  have hlt : double < other := f.units_strictMono.lt_iff_lt.1 (hdouble.trans_lt h)
  exact hroom.trans (f.units_strictMono.monotone hlt)

/-- As many leading bits as the format keeps are a magnitude, with any number of zeros behind
them. -/
lemma exists_units_mul_two_pow {m : Nat} (hm : m ≤ 2 * f.block) (shift : Nat) :
    ∃ rank, f.units rank = m * 2 ^ shift := by
  induction shift with
  | zero => exact ⟨0 * f.block + m, f.units_grid (.inr (Eq.refl 0)) hm⟩
  | succ shift ih =>
      obtain ⟨rank, hrank⟩ := ih
      obtain ⟨double, hdouble, -⟩ := f.exists_units_double rank
      refine ⟨double, ?_⟩
      rw [hdouble, hrank]
      ring

lemma roundPlace_units (hrank : rank ≤ f.top) : f.roundPlace (f.units rank) = rank := by
  rw [roundPlace_natCast, f.roundRank_units hrank]

/-- Nothing positive is rounded to zero, since the least positive magnitude is one unit. -/
lemma roundPlace_pos (htop : 0 < f.top) {n : Int} (hn : 0 < n) : 0 < f.roundPlace n := by
  have hone : f.units 1 = 1 := by
    have hgrid := f.units_grid (.inr (Eq.refl 0)) (show 1 ≤ 2 * f.block by
      have hpos := f.block_pos
      omega)
    rwa [Nat.zero_mul, Nat.zero_add, Nat.pow_zero, Nat.mul_one] at hgrid
  have hplace := f.roundPlace_units htop
  rw [hone] at hplace
  exact Int.zero_lt_one.trans_le (hplace.ge.trans (f.roundPlace_mono hn))

end Format

namespace Binary

variable {f : Format}

lemma exists_rank_of_inUnits {x : Binary f} {a : Int} (hx : x.inUnits? = some a) (ha : 0 ≤ a) :
    ∃ rank < f.top, a = f.units rank := by
  rcases x with _ | ⟨negative, rank, hrank⟩
  · simp [inUnits?] at hx
  rw [inUnits?] at hx
  split at hx
  · rename_i hlt
    obtain rfl := Option.some.inj hx
    cases negative with
    | false => exact ⟨rank, hlt, if_neg Bool.false_ne_true⟩
    | true =>
        rw [signedUnits, if_pos rfl] at ha ⊢
        exact ⟨0, by omega, by rw [Format.units_zero]; omega⟩
  · simp at hx

variable {x y : Binary32} {a b : Int}

/-- **The rounded double** of a number compares as its exact double does. -/
theorem le_mul_two_iff (hx : x.inUnits? = some a) (hy : y.inUnits? = some b) (ha : 0 ≤ a) :
    y ≤ x * (2 : Binary32) ↔ b ≤ 2 * a := by
  have hdouble := place?_mul_two hx
  constructor
  · intro hle
    by_contra hlt
    obtain ⟨rank, -, rfl⟩ := exists_rank_of_inUnits hx ha
    obtain ⟨other, hother, rfl⟩ := exists_rank_of_inUnits hy (by omega)
    obtain ⟨double, hunits, -⟩ := Format.single.exists_units_double rank
    have hrank : double < other := Format.single.units_strictMono.lt_iff_lt.1 (by omega)
    rw [show (Format.single.units rank : Int) * 2 = Format.single.units double by omega,
      Format.roundPlace_units _ (by omega)] at hdouble
    have hplace := place?_of_inUnits hy
    rw [Format.roundPlace_units _ hother.le] at hplace
    obtain ⟨p, q, hp, hq, hpq⟩ := le_iff_place.1 hle
    obtain rfl := Option.some.inj (hplace.symm.trans hp)
    obtain rfl := Option.some.inj (hdouble.symm.trans hq)
    omega
  · intro hle
    exact le_iff_place.2 ⟨_, _, place?_of_inUnits hy, hdouble,
      Format.single.roundPlace_mono (show b ≤ a * 2 by omega)⟩

lemma zero_lt_sub_iff (hx : x.inUnits? = some a) (hy : y.inUnits? = some b) :
    0 < y - x ↔ a < b := by
  have hzero : (0 : Binary32).place? = some (Format.single.roundPlace 0) := by
    rw [place?_zero, Format.roundPlace_zero]
  constructor
  · intro hpos
    have hvalue := lt_of_roundPlace_lt hzero (place?_sub hy hx) hpos
    omega
  · intro hlt
    have hplace := Format.single.roundPlace_pos (by decide) (show 0 < b - a by omega)
    exact lt_iff_place.2 ⟨_, _, place?_zero, place?_sub hy hx, hplace⟩

/-- If twice a number is less than another one, more than the number is left of that after it is
taken away once. -/
lemma exists_inUnits_sub (hx : x.inUnits? = some a) (hy : y.inUnits? = some b) (ha : 0 ≤ a)
    (h : 2 * a < b) : ∃ d, (y - x).inUnits? = some d ∧ a < d := by
  have hplace := place?_sub hy hx
  obtain ⟨rank, hrank, rfl⟩ := exists_rank_of_inUnits hx ha
  obtain ⟨other, hother, rfl⟩ := exists_rank_of_inUnits hy (by omega)
  have hroom := Format.single.units_add_succ_le (show
    2 * Format.single.units rank < Format.single.units other by omega)
  -- what is left lies between the next greater number and all that there was
  have hnext := Format.single.roundPlace_units (show rank + 1 ≤ Format.single.top from hrank)
  have hlow : (rank + 1 : Nat) ≤ Format.single.roundPlace
      (Format.single.units other - Format.single.units rank) :=
    hnext.ge.trans (Format.single.roundPlace_mono (by omega))
  have hhigh : Format.single.roundPlace
      (Format.single.units other - Format.single.units rank) ≤ other :=
    (Format.single.roundPlace_mono (by omega)).trans (Format.single.roundPlace_units hother.le).le
  have hfinite : (y - x).isFinite = true :=
    isFinite_iff_place.2 ⟨_, hplace, by omega, by omega⟩
  obtain ⟨d, hd⟩ := exists_inUnits_iff.2 hfinite
  refine ⟨d, hd, Format.single.roundPlace_mono.reflect_lt ?_⟩
  have heq := Option.some.inj ((place?_of_inUnits hd).symm.trans hplace)
  have hself := Format.single.roundPlace_units hrank.le
  omega

/-- **Doubling and taking away twice agree** on whether a number leaves anything of another one. -/
theorem pos_sub_sub_iff (hx : x.isFinite = true) (hpos : 0 < x) (hy : y.isFinite = true) :
    ((y - x - x).isFinite = true ∧ 0 < y - x - x) ↔ ¬ y ≤ x * (2 : Binary32) := by
  obtain ⟨a, ha⟩ := exists_inUnits_iff.2 hx
  obtain ⟨b, hb⟩ := exists_inUnits_iff.2 hy
  have hnonneg := inUnits_nonneg ha (lt_asymm hpos)
  rw [le_mul_two_iff ha hb hnonneg, Int.not_le]
  constructor
  · rintro ⟨-, hleft⟩
    by_contra hle
    -- the first difference is at most the number, and so is nothing or less after the second
    have hfirst : y - x ≤ x := le_iff_place.2 ⟨_, _, place?_sub hb ha, place?_of_inUnits ha,
      Format.single.roundPlace_mono (by omega)⟩
    have hsecond : y - x - x ≤ x - x :=
      sub_le_sub hfirst (le_refl_iff.2 (isNaN_of_isFinite hx)) hx hx
    have hnothing := (zero_lt_sub_iff ha ha).1 (lt_of_lt_of_le hleft hsecond)
    omega
  · intro hlt
    obtain ⟨d, hd, hlt'⟩ := exists_inUnits_sub ha hb hnonneg hlt
    have hleft : 0 < y - x - x := (zero_lt_sub_iff ha hd).2 hlt'
    have hfinite : (y - x).isFinite = true := exists_inUnits_iff.1 ⟨d, hd⟩
    have hle : y - x - x ≤ y - x := sub_le_self (isNaN_of_isFinite hfinite) hx (lt_asymm hpos)
    have hzero : (0 : Binary32).isFinite = true := by decide +kernel
    exact ⟨isFinite_of_le_of_le hzero hfinite (le_of_lt hleft) hle, hleft⟩

end Binary

end Folio
