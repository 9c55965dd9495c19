import Mathlib.Tactic
import Folio.Proofs.Layout.Setup

/-!
The margins that the check allows leave a content box. The check doubles the margin and compares,
while the content box takes the margin away from both ends of a side. Each operation is rounded, and
still the two agree on every page and every margin (`Points.isPositive_sub_sub_iff`,
`PageSetup.check_agrees_with_contentBox`).
-/

namespace Folio

namespace Rect

/-- The rectangle is not empty: its edges are in order, and its width and height are lengths. -/
structure Proper (r : Rect) : Prop where
  left_lt_right : r.left < r.right
  bottom_lt_top : r.bottom < r.top
  width : r.width.isPositive = true
  height : r.height.isPositive = true

/-- The rectangle lies in another one. -/
structure Within (inner outer : Rect) : Prop where
  left : outer.left ≤ inner.left
  bottom : outer.bottom ≤ inner.bottom
  right : inner.right ≤ outer.right
  top : inner.top ≤ outer.top

/-- The point lies in the rectangle or on its edge. -/
structure Contains (r : Rect) (point : Points × Points) : Prop where
  left : r.left ≤ point.1
  right : point.1 ≤ r.right
  vertical : r.containsY point.2 = true

end Rect

namespace Points

variable {side margin : Points}

lemma isPositive_iff : side.isPositive = true ↔ side.value.isFinite = true ∧ 0 < side.value := by
  simp [isPositive]

/-- **The margin fits twice** exactly if its double is less than the side. -/
theorem isPositive_sub_sub_iff (hside : side.isPositive = true)
    (hmargin : margin.isPositive = true) :
    (side - margin - margin).isPositive = true ↔ ¬ side ≤ margin * (2 : Binary32) := by
  obtain ⟨hfinite, hpos⟩ := isPositive_iff.1 hmargin
  rw [isPositive_iff]
  exact Binary.pos_sub_sub_iff hfinite hpos (isPositive_iff.1 hside).1

/-- A margin that fits twice ends before the margin from the other end starts. -/
lemma lt_sub_of_not_le_double (hside : side.isPositive = true) (hmargin : margin.isPositive = true)
    (h : ¬ side ≤ margin * (2 : Binary32)) : margin < side - margin := by
  obtain ⟨hfinite, hpos⟩ := isPositive_iff.1 hmargin
  obtain ⟨a, ha⟩ := Binary.exists_inUnits_iff.2 hfinite
  obtain ⟨b, hb⟩ := Binary.exists_inUnits_iff.2 (isPositive_iff.1 hside).1
  have hnonneg := Binary.inUnits_nonneg ha (Binary.lt_asymm hpos)
  have hroom : 2 * a < b := Int.not_le.1 fun hle => h ((Binary.le_mul_two_iff ha hb hnonneg).2 hle)
  obtain ⟨d, hd, hlt⟩ := Binary.exists_inUnits_sub ha hb hnonneg hroom
  exact (Binary.lt_iff_inUnits ha hd).2 hlt

end Points

namespace PageSetup

variable {s : PageSetup}

namespace Accepted

lemma isPositive_width (h : s.Accepted) : s.width.isPositive = true :=
  h.positive (.pageWidth, s.width) (by simp [positiveLengths])

lemma isPositive_height (h : s.Accepted) : s.height.isPositive = true :=
  Points.isPositive_iff.2 h.height

lemma isPositive_margin (h : s.Accepted) : s.margin.isPositive = true :=
  Points.isPositive_iff.2 h.margin

lemma proper_contentBox (h : s.Accepted) : s.contentBox.Proper where
  left_lt_right :=
    Points.lt_sub_of_not_le_double h.isPositive_width h.isPositive_margin h.width_room
  bottom_lt_top :=
    Points.lt_sub_of_not_le_double h.isPositive_height h.isPositive_margin h.height_room
  width := (Points.isPositive_sub_sub_iff h.isPositive_width h.isPositive_margin).2 h.width_room
  height := (Points.isPositive_sub_sub_iff h.isPositive_height h.isPositive_margin).2 h.height_room

lemma contentBox_within (h : s.Accepted) : s.contentBox.Within s.mediaBox := by
  obtain ⟨hfinite, hpos⟩ := h.margin
  have hside : ∀ side : Points, side.isPositive = true → side - s.margin ≤ side := fun side hside =>
    Binary.sub_le_self (Binary.isNaN_of_isFinite (Points.isPositive_iff.1 hside).1) hfinite
      (Binary.lt_asymm hpos)
  exact ⟨Binary.le_of_lt hpos, Binary.le_of_lt hpos, hside _ h.isPositive_width,
    hside _ h.isPositive_height⟩

/-- The first baseline starts in the content box, at its upper left corner. -/
lemma contentBox_contains_start (h : s.Accepted) : s.contentBox.Contains s.start where
  left := Binary.le_refl_iff.2 (Binary.isNaN_of_isFinite h.margin.1)
  right := Binary.le_of_lt h.proper_contentBox.left_lt_right
  vertical := by
    have hbottom : s.contentBox.bottom ≤ s.start.2 :=
      Binary.le_of_lt h.proper_contentBox.bottom_lt_top
    have htop : s.start.2 ≤ s.contentBox.top :=
      Binary.le_refl_iff.2 (Binary.isNaN_of_isFinite h.isFinite_start)
    exact Bool.and_eq_true_iff.2 ⟨decide_eq_true hbottom, decide_eq_true htop⟩

end Accepted

/-- If all lengths are what they should be, the check is its last test. -/
lemma check_eq_of_spacing (hpositive : ∀ length ∈ s.positiveLengths, length.2.isPositive = true)
    (hfinite : s.gap.value.isFinite = true) (hnonneg : ¬ s.gap < 0) :
    s.check = if s.width ≤ s.margin * (2 : Binary32) ∨ s.height ≤ s.margin * (2 : Binary32) then
      .error (.noContentArea s.margin s.width s.height) else .ok () := by
  have hfind : (s.positiveLengths.find? fun length => !length.2.isPositive) = none := by
    simpa using hpositive
  simp [check, hfind, hfinite, hnonneg]

/-- **The check agrees with the content box.** For a page and a margin of positive lengths, the
doubled margin is less than both sides exactly if the content box has a positive width and height.
So with lengths that pass the other tests, a setup without room for content is refused, and any
other is accepted. The content box of an accepted setup is a proper part of the page, and the first
baseline starts in it. -/
theorem check_agrees_with_contentBox (s : PageSetup) :
    (s.width.isPositive = true → s.height.isPositive = true → s.margin.isPositive = true →
      (¬ (s.width ≤ s.margin * (2 : Binary32) ∨ s.height ≤ s.margin * (2 : Binary32)) ↔
        s.contentBox.width.isPositive = true ∧ s.contentBox.height.isPositive = true) ∧
      (s.fontSize.isPositive = true → s.leading.isPositive = true →
        s.gap.value.isFinite = true → ¬ s.gap < 0 →
        s.check = if s.contentBox.width.isPositive && s.contentBox.height.isPositive then .ok ()
          else .error (.noContentArea s.margin s.width s.height))) ∧
    (s.check = .ok () →
      s.contentBox.Proper ∧ s.contentBox.Within s.mediaBox ∧ s.contentBox.Contains s.start) := by
  refine ⟨fun hwidth hheight hmargin => ?_, fun hcheck => ?_⟩
  · have hroom : ¬ (s.width ≤ s.margin * (2 : Binary32) ∨ s.height ≤ s.margin * (2 : Binary32)) ↔
        s.contentBox.width.isPositive = true ∧ s.contentBox.height.isPositive = true := by
      rw [not_or]
      exact and_congr (Points.isPositive_sub_sub_iff hwidth hmargin).symm
        (Points.isPositive_sub_sub_iff hheight hmargin).symm
    refine ⟨hroom, fun hfont hleading hfinite hnonneg => ?_⟩
    rw [check_eq_of_spacing (by simp [positiveLengths, *]) hfinite hnonneg]
    by_cases hcontent : s.contentBox.width.isPositive = true ∧ s.contentBox.height.isPositive = true
    · rw [if_neg (hroom.2 hcontent), if_pos (Bool.and_eq_true_iff.2 hcontent)]
    · rw [if_pos (not_not.1 (mt hroom.1 hcontent)),
        if_neg (mt Bool.and_eq_true_iff.1 hcontent)]
  · have haccepted := check_eq_ok_iff.1 hcheck
    exact ⟨haccepted.proper_contentBox, haccepted.contentBox_within,
      haccepted.contentBox_contains_start⟩

/-- A margin one step below half the page leaves content. -/
theorem check_agrees_with_contentBox_below_half :
    let s : PageSetup := ⟨100, 100, ⟨.ofBits .single 0x4247ffff⟩, 10, 15, 0⟩
    s.check = .ok () ∧ s.contentBox.width.isPositive = true ∧ s.contentBox.Proper ∧
      s.contentBox.Contains s.start := by
  intro s
  obtain ⟨hagree, haccepted⟩ := check_agrees_with_contentBox s
  obtain ⟨hroom, hcheck⟩ := hagree (by decide +kernel) (by decide +kernel) (by decide +kernel)
  have hcontent := hroom.1 (by decide +kernel)
  have hok : s.check = .ok () := by
    rw [hcheck (by decide +kernel) (by decide +kernel) (by decide +kernel) (by decide +kernel),
      hcontent.1, hcontent.2]
    rfl
  obtain ⟨hproper, -, hstart⟩ := haccepted hok
  exact ⟨hok, hcontent.1, hproper, hstart⟩

/-- Half the page leaves nothing, and neither does a margin whose double is too great for single
precision. -/
example : let s : PageSetup := ⟨100, 100, 50, 10, 15, 0⟩
    let great : Points := ⟨.ofBits .single 0x7f7fffff⟩
    s.check = .error (.noContentArea 50 100 100) ∧ s.contentBox.width = 0 ∧
      PageSetup.check ⟨great, great, ⟨.ofBits .single 0x7f000000⟩, 10, 15, 0⟩
        = .error (.noContentArea ⟨.ofBits .single 0x7f000000⟩ great great) := by
  decide +kernel

end PageSetup

end Folio
