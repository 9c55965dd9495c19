import Mathlib.Tactic
import Folio.Proofs.Binary.Doubling

/-!
Whole numbers in single precision. It keeps 24 bits, so that a whole number up to `2 ^ 24` in size
is exact (`Binary.inUnits?_ofInt`), and so are the differences of such numbers that do not leave the
range (`Binary.ofInt_sub_ofInt`).
-/

namespace Folio

/-- A whole number that fits into the bits of single precision is the magnitude of a finite rank. -/
lemma Format.exists_units_whole {n : Nat} (hn : n ≤ 2 ^ 24) :
    ∃ rank < single.top, single.units rank = n * single.one := by
  obtain ⟨rank, hrank⟩ := single.exists_units_mul_two_pow
    (show n ≤ 2 * single.block from hn) single.depth
  refine ⟨rank, single.units_strictMono.lt_iff_lt.1 ?_, hrank⟩
  calc single.units rank = n * single.one := hrank
    _ ≤ 2 ^ 24 * single.one := Nat.mul_le_mul_right _ hn
    _ < single.units single.top := by decide +kernel

namespace Binary

variable {x y : Binary32} {a b : Int}

/-- **A small whole number is exact.** -/
theorem inUnits?_ofInt {n : Int} (hn : n.natAbs ≤ 2 ^ 24) :
    (ofInt n : Binary32).inUnits? = some (n * Format.single.one) := by
  obtain ⟨rank, hlt, hrank⟩ := Format.exists_units_whole hn
  have hround : Format.single.roundRank (n.natAbs * Format.single.one) 1 = rank := by
    rw [← hrank, Format.single.roundRank_units hlt.le]
  simp only [ofInt, rounded, inUnits?, hround, if_pos hlt, signedUnits, hrank]
  rcases lt_or_ge n 0 with hneg | hnonneg
  · rw [decide_eq_true hneg, if_pos rfl]
    push_cast
    rw [abs_of_neg hneg, Int.neg_mul, Int.neg_neg]
  · rw [decide_eq_false hnonneg.not_gt, if_neg Bool.false_ne_true]
    push_cast
    rw [abs_of_nonneg hnonneg]

lemma ofInt_lt_ofInt {m n : Int} (hm : m.natAbs ≤ 2 ^ 24) (hn : n.natAbs ≤ 2 ^ 24) :
    (ofInt m : Binary32) < ofInt n ↔ m < n := by
  have hone : (0 : Int) < Format.single.one := by decide +kernel
  rw [lt_iff_inUnits (inUnits?_ofInt hm) (inUnits?_ofInt hn)]
  exact mul_lt_mul_iff_of_pos_right hone

/-! ### Differences -/

/-- A sum that is not zero has the sign of the exact one, and its rounded magnitude. -/
lemma add_eq_rounded (hx : x.inUnits? = some a) (hy : y.inUnits? = some b) (hne : a + b ≠ 0) :
    x + y = rounded (decide (a + b < 0)) (a + b).natAbs 1 := by
  rcases x with _ | ⟨s, r, hr⟩
  · simp [inUnits?] at hx
  rcases y with _ | ⟨t, q, hq⟩
  · simp [inUnits?] at hy
  rw [inUnits?] at hx hy
  split at hx
  · split at hy
    · rename_i hrtop hqtop
      obtain rfl := Option.some.inj hx
      obtain rfl := Option.some.inj hy
      change add (.number s r hr) (.number t q hq) = _
      simp only [add, if_neg hrtop.ne, if_neg hqtop.ne, if_neg hne]
    · simp at hy
  · simp at hx

/-- A finite number without itself is zero, and not minus zero. -/
lemma sub_self_of_isFinite (hx : x.isFinite = true) : x - x = ofInt 0 := by
  rcases x with _ | ⟨negative, rank, hrank⟩
  · simp [isFinite] at hx
  · have htop : rank ≠ Format.single.top := by
      simp only [isFinite, decide_eq_true_eq] at hx
      exact hx.ne
    have hsum : signedUnits Format.single negative rank
        + signedUnits Format.single (!negative) rank = 0 := by
      cases negative <;> simp [signedUnits]
    have hzero : (ofInt 0 : Binary32) = zero false := by decide +kernel
    change add (.number negative rank hrank) (.number (!negative) rank hrank) = _
    simp only [add, if_neg htop, hsum, if_true, Bool.and_not_self, hzero]

/-- **The difference of small whole numbers** is the number nearest to their exact difference. -/
theorem ofInt_sub_ofInt {m n : Int} (hm : m.natAbs ≤ 2 ^ 24) (hn : n.natAbs ≤ 2 ^ 24) :
    (ofInt m - ofInt n : Binary32) = ofInt (m - n) := by
  rcases eq_or_ne m n with rfl | hne
  · rw [sub_self_of_isFinite (exists_inUnits_iff.1 ⟨_, inUnits?_ofInt hm⟩), Int.sub_self]
  · have hone : (0 : Int) < Format.single.one := by decide +kernel
    have hexact : m * (Format.single.one : Int) + -(n * Format.single.one)
        = (m - n) * Format.single.one := by ring
    have hnonzero : (m - n) * (Format.single.one : Int) ≠ 0 :=
      mul_ne_zero (sub_ne_zero.2 hne) hone.ne'
    have hsign : (m - n) * (Format.single.one : Int) < 0 ↔ m - n < 0 := by
      rw [← mul_lt_mul_iff_of_pos_right hone (b := m - n), Int.zero_mul]
    calc (ofInt m - ofInt n : Binary32)
        = ofInt m + -ofInt n := rfl
      _ = rounded (decide ((m - n) * (Format.single.one : Int) < 0))
            ((m - n) * (Format.single.one : Int)).natAbs 1 := by
          rw [add_eq_rounded (inUnits?_ofInt hm) (inUnits?_neg (inUnits?_ofInt hn))
            (by rwa [hexact]), hexact]
      _ = ofInt (m - n) := by
          rw [ofInt, decide_eq_decide.2 hsign, Int.natAbs_mul, Int.natAbs_natCast]

end Binary

end Folio
