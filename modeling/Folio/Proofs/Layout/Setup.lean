import Mathlib.Tactic
import Folio.Layout.PageSetup
import Folio.Proofs.Binary.Doubling

/-!
Setups that can be used: those that the check accepts (`PageSetup.check_eq_ok_iff`). The first
baseline of their pages is not below the bottom margin (`PageSetup.Accepted.margin_le_start`). The
check doubles the margin, while the content box takes it away from the height; that the one is less
than the height says enough of the other since every operation rounds in order.
-/

namespace Folio

namespace PageSetup

variable {s : PageSetup} {y : Points}

/-- The lengths of the setup are positive, its gap is finite and not negative, and its margins leave
something of the page. -/
structure Accepted (s : PageSetup) : Prop where
  positive : ∀ length ∈ s.positiveLengths, length.2.isPositive = true
  gap_finite : s.gap.value.isFinite = true
  gap_nonneg : ¬ s.gap < 0
  width_room : ¬ s.width ≤ s.margin * (2 : Binary32)
  height_room : ¬ s.height ≤ s.margin * (2 : Binary32)

/-- **The check accepts** the setups that can be used. -/
theorem check_eq_ok_iff : s.check = .ok () ↔ s.Accepted := by
  rw [check]
  cases hfind : s.positiveLengths.find? fun length => !length.2.isPositive with
  | some length =>
      have hlength := List.find?_some hfind
      have hmem := List.mem_of_find?_eq_some hfind
      constructor
      · intro h
        simp at h
      · intro h
        rw [h.positive length hmem] at hlength
        simp at hlength
  | none =>
      have hpositive : ∀ length ∈ s.positiveLengths, length.2.isPositive = true := by
        simpa using List.find?_eq_none.1 hfind
      constructor
      · intro h
        simp only at h
        split_ifs at h with hgap hroom
        simp only [Bool.or_eq_true, Bool.not_eq_true', decide_eq_true_eq, not_or,
          Bool.not_eq_false] at hgap hroom
        exact ⟨hpositive, hgap.1, hgap.2, hroom.1, hroom.2⟩
      · rintro ⟨-, hfinite, hnonneg, hwidth, hheight⟩
        simp [hfinite, hnonneg, hwidth, hheight]

namespace Accepted

/-- A length that is checked to be positive is finite and greater than zero. -/
lemma isPositive_of_mem (h : s.Accepted) (dimension : Dimension) {length : Points}
    (hmem : (dimension, length) ∈ s.positiveLengths) :
    length.value.isFinite = true ∧ 0 < length.value := by
  simpa [Points.isPositive] using h.positive _ hmem

lemma margin (h : s.Accepted) : s.margin.value.isFinite = true ∧ 0 < s.margin.value :=
  h.isPositive_of_mem .margin (by simp [positiveLengths])

lemma height (h : s.Accepted) : s.height.value.isFinite = true ∧ 0 < s.height.value :=
  h.isPositive_of_mem .pageHeight (by simp [positiveLengths])

lemma fontSize (h : s.Accepted) : s.fontSize.value.isFinite = true ∧ 0 < s.fontSize.value :=
  h.isPositive_of_mem .fontSize (by simp [positiveLengths])

lemma leading (h : s.Accepted) : s.leading.value.isFinite = true ∧ 0 < s.leading.value :=
  h.isPositive_of_mem .leading (by simp [positiveLengths])

/-- The margin fits twice into the height. -/
lemma exact_margin_le (h : s.Accepted) {m k : Int} (hm : s.margin.value.inUnits? = some m)
    (hk : s.height.value.inUnits? = some k) : m ≤ k - m := by
  have hnonneg := Binary.inUnits_nonneg hm (Binary.lt_asymm h.margin.2)
  have hvalue : ¬ k ≤ 2 * m := mt (Binary.le_mul_two_iff hm hk hnonneg).2 h.height_room
  omega

/-- **The first baseline** of a page is not below the bottom margin. -/
theorem margin_le_start (h : s.Accepted) : s.margin ≤ s.start.2 := by
  obtain ⟨m, hm⟩ := Binary.exists_inUnits_iff.2 h.margin.1
  obtain ⟨k, hk⟩ := Binary.exists_inUnits_iff.2 h.height.1
  exact Binary.le_sub_of_inUnits hm hk (h.exact_margin_le hm hk)

/-- The first baseline of a page is not above the page. -/
lemma start_le_height (h : s.Accepted) : s.start.2 ≤ s.height :=
  Binary.sub_le_self (Binary.isNaN_of_isFinite h.height.1) h.margin.1 (Binary.lt_asymm h.margin.2)

lemma isFinite_start (h : s.Accepted) : s.start.2.value.isFinite = true :=
  Binary.isFinite_of_le_of_le h.margin.1 h.height.1 h.margin_le_start h.start_le_height

lemma start_le_start (h : s.Accepted) : s.start.2 ≤ s.start.2 :=
  Binary.le_refl_iff.2 (Binary.isNaN_of_isFinite h.isFinite_start)

/-- The margins leave room for a line at the start of a page. -/
lemma not_start_lt_margin (h : s.Accepted) : ¬ s.start.2 < s.margin :=
  (Binary.not_lt_iff (Binary.isNaN_of_isFinite h.isFinite_start)
    (Binary.isNaN_of_isFinite h.margin.1)).2 h.margin_le_start

lemma sub_leading_le (h : s.Accepted) (hy : y.value.isNaN = false) : y - s.leading ≤ y :=
  Binary.sub_le_self hy h.leading.1 (Binary.lt_asymm h.leading.2)

lemma sub_gap_le (h : s.Accepted) (hy : y.value.isNaN = false) : y - s.gap ≤ y :=
  Binary.sub_le_self hy h.gap_finite h.gap_nonneg

end Accepted

end PageSetup

end Folio
