import Mathlib.Tactic
import Folio.Binary.Format

/-!
The grid of a binary format, and rounding onto it.

* `Format.units_grid`: on the grid of spacing `2 ^ shift` the magnitudes are the multiples of the
  spacing.
* `Format.succ_le_roundRank_iff`: rounding reaches past a rank exactly if the number is beyond the
  middle between that magnitude and the next one, or in the middle and the rank is odd.
-/

namespace Folio

namespace Format

variable (f : Format)

/-! ### The grid -/

lemma block_eq : f.block = 2 ^ f.fraction := rfl

lemma block_pos : 0 < f.block := Nat.pow_pos Nat.two_pos

/-- The magnitudes of the first block are one unit apart. -/
lemma units_of_lt_block {rank : Nat} (h : rank < f.block) : f.units rank = rank := by
  rw [units, Nat.div_eq_of_lt h]

/-- The magnitudes of the block that has `shift` doublings of the spacing before it. -/
lemma units_block {shift k : Nat} (h : k < f.block) :
    f.units (k + (shift + 1) * f.block) = (f.block + k) * 2 ^ shift := by
  have hdiv : (k + (shift + 1) * f.block) / f.block = shift + 1 := by
    rw [Nat.add_mul_div_right _ _ f.block_pos, Nat.div_eq_of_lt h, Nat.zero_add]
  have hmod : (k + (shift + 1) * f.block) % f.block = k := by
    rw [Nat.add_mul_mod_self_right, Nat.mod_eq_of_lt h]
  simp only [units, hdiv, hmod, Nat.shiftLeft_eq]

/-- The magnitudes with spacing `2 ^ shift` are its multiples. They start at zero for the least
spacing, and reach up to the first magnitude of the next one. -/
lemma units_grid {shift m : Nat} (hlow : f.block ≤ m ∨ shift = 0) (hhigh : m ≤ 2 * f.block) :
    f.units (shift * f.block + m) = m * 2 ^ shift := by
  rcases Nat.lt_or_ge m f.block with hm | hm
  · obtain rfl : shift = 0 := hlow.resolve_left (by omega)
    rw [Nat.zero_mul, Nat.zero_add, f.units_of_lt_block hm, Nat.pow_zero, Nat.mul_one]
  · obtain ⟨k, rfl⟩ := Nat.exists_eq_add_of_le hm
    rcases Nat.lt_or_ge k f.block with hk | hk
    · have hrank : shift * f.block + (f.block + k) = k + (shift + 1) * f.block := by ring
      rw [hrank, f.units_block hk]
    · -- the first magnitude of the next spacing
      obtain rfl : k = f.block := by omega
      have hrank : shift * f.block + (f.block + f.block) = 0 + (shift + 1 + 1) * f.block := by ring
      rw [hrank, f.units_block f.block_pos]
      ring

lemma exists_grid (rank : Nat) : ∃ shift m, rank = shift * f.block + m ∧
    (f.block ≤ m ∨ shift = 0) ∧ m < 2 * f.block := by
  have hpos := f.block_pos
  have hmod := Nat.mod_lt rank hpos
  have hdiv := Nat.div_add_mod rank f.block
  cases hshift : rank / f.block with
  | zero =>
      refine ⟨0, rank, by omega, .inr rfl, ?_⟩
      rw [hshift] at hdiv
      omega
  | succ shift =>
      refine ⟨shift, f.block + rank % f.block, ?_, .inl (Nat.le_add_right _ _), by omega⟩
      rw [← hdiv, hshift]
      simp only [Nat.mul_add_mod_self_left, Nat.mod_mod]
      ring

/-- **Magnitudes increase with their ranks.** -/
theorem units_strictMono : StrictMono f.units := by
  refine strictMono_nat_of_lt_succ fun rank => ?_
  obtain ⟨shift, m, rfl, hlow, hhigh⟩ := f.exists_grid rank
  have hlow' : f.block ≤ m + 1 ∨ shift = 0 := hlow.imp_left fun hle => by omega
  rw [Nat.add_assoc, f.units_grid hlow hhigh.le, f.units_grid hlow' hhigh]
  exact Nat.mul_lt_mul_of_pos_right (Nat.lt_add_one m) (Nat.two_pow_pos shift)

@[simp] lemma units_zero : f.units 0 = 0 := f.units_of_lt_block f.block_pos

/-! ### The rank below -/

/-- The leading bits of a whole number, as many as the format keeps, are a multiple on the grid of
their spacing. -/
lemma floorRank_grid (n : Nat) :
    (f.block ≤ n >>> (n.log2 - f.fraction) ∨ n.log2 - f.fraction = 0) ∧
      n >>> (n.log2 - f.fraction) < 2 * f.block := by
  rw [Nat.shiftRight_eq_div_pow]
  constructor
  · rcases Nat.eq_zero_or_pos (n.log2 - f.fraction) with hzero | hpos
    · exact .inr hzero
    · refine .inl ((Nat.le_div_iff_mul_le (Nat.two_pow_pos _)).2 ?_)
      have hn : n ≠ 0 := by
        rintro rfl
        simp at hpos
      calc f.block * 2 ^ (n.log2 - f.fraction)
          = 2 ^ n.log2 := by
            rw [block_eq, ← Nat.pow_add]
            congr 1
            omega
        _ ≤ n := Nat.log2_self_le hn
  · rw [Nat.div_lt_iff_lt_mul (Nat.two_pow_pos _)]
    calc n < 2 ^ (n.log2 + 1) := Nat.lt_log2_self
      _ ≤ 2 ^ (1 + f.fraction + (n.log2 - f.fraction)) :=
        Nat.pow_le_pow_right Nat.two_pos (by omega)
      _ = 2 * f.block * 2 ^ (n.log2 - f.fraction) := by
        rw [block_eq, Nat.pow_add, Nat.pow_add, Nat.pow_one]

lemma units_floorRank_le (n : Nat) : f.units (f.floorRank n) ≤ n := by
  obtain ⟨hlow, hhigh⟩ := f.floorRank_grid n
  rw [floorRank, f.units_grid hlow hhigh.le, Nat.shiftRight_eq_div_pow]
  exact Nat.div_mul_le_self _ _

lemma lt_units_floorRank_succ (n : Nat) : n < f.units (f.floorRank n + 1) := by
  obtain ⟨hlow, hhigh⟩ := f.floorRank_grid n
  have hlow' := hlow.imp_left fun hle => Nat.le_succ_of_le hle
  rw [floorRank, Nat.add_assoc, f.units_grid hlow' hhigh, Nat.shiftRight_eq_div_pow]
  exact Nat.lt_mul_of_div_lt (Nat.lt_succ_self _) (Nat.two_pow_pos _)

/-! ### The nearest rank -/

variable {num den num' den' rank : Nat}

/-- **Rounding reaches past a rank** if the number is beyond the middle between its magnitude and
the next one, or in the middle while the rank is odd. -/
theorem succ_le_roundRank_iff (hden : 0 < den) (hrank : rank < f.top) :
    rank + 1 ≤ f.roundRank num den ↔
      (f.units rank + f.units (rank + 1)) * den < 2 * num ∨
        (f.units rank + f.units (rank + 1)) * den = 2 * num ∧ rank % 2 = 1 := by
  have hlow : f.units (f.floorRank (num / den)) * den ≤ num :=
    (Nat.le_div_iff_mul_le hden).1 (f.units_floorRank_le _)
  have hhigh : num < f.units (f.floorRank (num / den) + 1) * den :=
    (Nat.div_lt_iff_lt_mul hden).1 (f.lt_units_floorRank_succ _)
  have hmono : ∀ {a b : Nat}, a ≤ b → f.units a * den ≤ f.units b * den := fun hab =>
    Nat.mul_le_mul_right den (f.units_strictMono.monotone hab)
  have hstrict : f.units rank * den < f.units (rank + 1) * den :=
    Nat.mul_lt_mul_of_pos_right (f.units_strictMono (Nat.lt_add_one rank)) hden
  rw [roundRank, Nat.add_mul, Nat.sub_mul]
  generalize f.floorRank (num / den) = low at hlow hhigh ⊢
  rcases Nat.lt_trichotomy rank low with hlt | rfl | hgt
  · have hle : f.units (rank + 1) * den ≤ f.units low * den := hmono hlt
    split_ifs <;> omega
  · split_ifs <;> omega
  · have hle : f.units (low + 1) * den ≤ f.units rank * den := hmono hgt
    split_ifs <;> omega

/-- **Rounding respects the order.** -/
theorem roundRank_mono (hden : 0 < den) (hden' : 0 < den') (h : num * den' ≤ num' * den) :
    f.roundRank num den ≤ f.roundRank num' den' := by
  cases hrank : f.roundRank num den with
  | zero => exact Nat.zero_le _
  | succ rank =>
      have htop : rank + 1 ≤ f.top := hrank.ge.trans (f.roundRank_le_top num den)
      rw [f.succ_le_roundRank_iff hden' htop]
      rcases (f.succ_le_roundRank_iff hden htop).1 hrank.ge with hlt | ⟨heq, hodd⟩
      · refine .inl (Nat.lt_of_mul_lt_mul_right (a := den) ?_)
        calc (f.units rank + f.units (rank + 1)) * den' * den
            = (f.units rank + f.units (rank + 1)) * den * den' := Nat.mul_right_comm _ _ _
          _ < 2 * num * den' := Nat.mul_lt_mul_of_pos_right hlt hden'
          _ = 2 * (num * den') := Nat.mul_assoc _ _ _
          _ ≤ 2 * (num' * den) := Nat.mul_le_mul_left 2 h
          _ = 2 * num' * den := (Nat.mul_assoc _ _ _).symm
      · have hle : (f.units rank + f.units (rank + 1)) * den' ≤ 2 * num' := by
          refine Nat.le_of_mul_le_mul_right ?_ hden
          calc (f.units rank + f.units (rank + 1)) * den' * den
              = (f.units rank + f.units (rank + 1)) * den * den' := Nat.mul_right_comm _ _ _
            _ = 2 * (num * den') := by rw [heq, Nat.mul_assoc]
            _ ≤ 2 * (num' * den) := Nat.mul_le_mul_left 2 h
            _ = 2 * num' * den := (Nat.mul_assoc _ _ _).symm
        exact hle.lt_or_eq.imp_right fun heq' => ⟨heq', hodd⟩

lemma roundRank_congr (hden : 0 < den) (hden' : 0 < den') (h : num * den' = num' * den) :
    f.roundRank num den = f.roundRank num' den' :=
  Nat.le_antisymm (f.roundRank_mono hden hden' h.le) (f.roundRank_mono hden' hden h.ge)

/-- **Rounding keeps the magnitudes of the grid.** -/
theorem roundRank_units (hrank : rank ≤ f.top) : f.roundRank (f.units rank) 1 = rank := by
  have hiff : ∀ r < f.top, r + 1 ≤ f.roundRank (f.units rank) 1 ↔ r + 1 ≤ rank := by
    intro r hr
    have hstep := f.units_strictMono (Nat.lt_add_one r)
    rw [f.succ_le_roundRank_iff Nat.one_pos hr, Nat.mul_one]
    constructor
    · intro hmiddle
      by_contra hle
      have hunits := f.units_strictMono.monotone (show rank ≤ r by omega)
      omega
    · intro hle
      have hunits := f.units_strictMono.monotone hle
      omega
  refine Nat.le_antisymm ?_ ?_
  · cases hr : f.roundRank (f.units rank) 1 with
    | zero => exact Nat.zero_le _
    | succ r => exact (hiff r (hr.ge.trans (f.roundRank_le_top _ _))).1 hr.ge
  · cases rank with
    | zero => exact Nat.zero_le _
    | succ r => exact (hiff r hrank).2 le_rfl

end Format

end Folio
