import Mathlib.Tactic
import Folio.Proofs.Layout.Conservation
import Folio.Proofs.Layout.Setup

/-!
Lines stay within their page (`paginate_contains_lines`). The baseline is at all times a number that
is neither above the start of a page nor above a line of the open page. It may run off to minus
infinity in between, through gaps, but no line is placed below the bottom margin.
-/

namespace Folio

/-- The page has the boxes of the setup, and its lines lie within its content box from the left edge
on, none of them above the one before it. -/
structure Page.Contained (setup : PageSetup) (page : Page) : Prop where
  contentBox : page.contentBox = setup.contentBox
  left : ∀ line ∈ page.lines, line.x = setup.start.1
  bottom : ∀ line ∈ page.lines, setup.margin ≤ line.y
  top : ∀ line ∈ page.lines, line.y ≤ setup.start.2
  descending : page.lines.Pairwise fun u v => v.y ≤ u.y

/-- The baseline is a number, not above the start of a page and not above a line of this one. -/
structure Page.Below (setup : PageSetup) (page : Page) (y : Points) : Prop where
  start : y ≤ setup.start.2
  lines : ∀ line ∈ page.lines, y ≤ line.y

namespace Page

variable {setup : PageSetup} {page : Page} {y z : Points} {text : String}

lemma contained_blank (setup : PageSetup) (number : Nat) : (blank number setup).Contained setup :=
  ⟨rfl, by simp, by simp, by simp, by simp⟩

/-- A line at the baseline, if that is not below the margin. -/
lemma Contained.addLine (hpage : page.Contained setup) (hy : page.Below setup y)
    (hmargin : setup.margin ≤ y) :
    (page.addLine ⟨text, setup.start.1, y⟩).Contained setup where
  contentBox := hpage.contentBox
  left := forall_mem_addLine hpage.left rfl
  bottom := forall_mem_addLine hpage.bottom hmargin
  top := forall_mem_addLine hpage.top hy.start
  descending := pairwise_addLine hpage.descending hy.lines

lemma Below.of_le (hy : page.Below setup y) (hle : z ≤ y) : page.Below setup z :=
  ⟨Binary.le_trans hle hy.start, fun line hline => Binary.le_trans hle (hy.lines line hline)⟩

/-- After a line is placed at the baseline, the baseline goes down from there. -/
lemma Below.addLine (hy : page.Below setup y) (hle : z ≤ y) :
    (page.addLine ⟨text, setup.start.1, y⟩).Below setup z where
  start := Binary.le_trans hle hy.start
  lines := forall_mem_addLine (hy.of_le hle).lines hle

lemma Below.isNaN (hy : page.Below setup y) : y.value.isNaN = false :=
  (Binary.isNaN_of_le hy.start).1

end Page

variable {setup : PageSetup}

/-- At the start of a page, the baseline is not above a line of it. -/
lemma PageSetup.Accepted.below_start (hs : setup.Accepted) {page : Page}
    (hempty : page.lines = []) : page.Below setup setup.start.2 :=
  ⟨hs.start_le_start, by simp [hempty]⟩

/-- **Stacking contains its lines**, if the open page does and the baseline is below them. -/
lemma contained_of_mem_stack (hs : setup.Accepted) {page : Page} {y : Points}
    (hpage : page.Contained setup) (hy : page.Below setup y) (rest : List Step) :
    ∀ q ∈ stack setup page y rest, q.Contained setup := by
  have hinvariant : ∀ q ∈ stack setup page y rest, ∃ z, q.Contained setup ∧ q.Below setup z := by
    refine exists_of_mem_stack hs.not_start_lt_margin (fun number => ?_) ?_ ?_ ?_ ⟨hpage, hy⟩ rest
    · exact ⟨Page.contained_blank setup number, hs.below_start rfl⟩
    · rintro page y ⟨hpage, hy⟩
      exact ⟨hpage, hy.of_le (hs.sub_gap_le hy.isNaN)⟩
    · rintro page y text ⟨hpage, hy⟩ hmargin
      have hle : setup.margin ≤ y :=
        (Binary.not_lt_iff hy.isNaN (Binary.isNaN_of_isFinite hs.margin.1)).1 hmargin
      exact ⟨hpage.addLine hy hle, hy.addLine (hs.sub_leading_le hy.isNaN)⟩
    · rintro page y ⟨hpage, -⟩ hempty
      exact ⟨hpage, hs.below_start hempty⟩
  intro q hq
  obtain ⟨-, hcontained, -⟩ := hinvariant q hq
  exact hcontained

lemma contained_of_paginate {text : String} {setup : PageSetup} {measure : Measurer}
    {pages : List Page} (h : paginate text setup measure = .ok pages) :
    setup.Accepted ∧ ∀ page ∈ pages, page.Contained setup := by
  obtain ⟨hcheck, wrapped, -, rfl⟩ := paginate_eq_ok_iff.1 h
  have hs := PageSetup.check_eq_ok_iff.1 hcheck
  exact ⟨hs, contained_of_mem_stack hs (Page.contained_blank setup 1) (hs.below_start rfl)
    (steps wrapped)⟩

lemma Page.Contained.isFinite {setup : PageSetup} {page : Page} {line : Line}
    (h : page.Contained setup) (hs : setup.Accepted) (hline : line ∈ page.lines) :
    line.x.value.isFinite = true ∧ line.y.value.isFinite = true := by
  constructor
  · rw [h.left line hline]
    exact hs.margin.1
  · exact Binary.isFinite_of_le_of_le hs.margin.1 hs.isFinite_start (h.bottom line hline)
      (h.top line hline)

/-- **Every page contains its lines.** Whatever is paginated, the lines of each page have finite
coordinates, start at the left edge of the content box, and have their baselines between its bottom
and its top. Down a page the baselines never go up. -/
theorem paginate_contains_lines {text : String} {setup : PageSetup} {measure : Measurer}
    {pages : List Page} (h : paginate text setup measure = .ok pages) :
    ∀ page ∈ pages, page.contentBox = setup.contentBox ∧
      (∀ line ∈ page.lines, line.x.value.isFinite = true ∧ line.y.value.isFinite = true ∧
        setup.margin ≤ line.y ∧ line.y ≤ setup.height - setup.margin ∧
        page.contentBox.containsY line.y = true ∧ line.x = page.contentBox.left) ∧
      page.lines.Pairwise fun u v => v.y ≤ u.y := by
  obtain ⟨hs, hpages⟩ := contained_of_paginate h
  intro page hpage
  have hcontained := hpages page hpage
  refine ⟨hcontained.contentBox, fun line hline => ?_, hcontained.descending⟩
  have hleft := hcontained.left line hline
  have hbottom := hcontained.bottom line hline
  have htop := hcontained.top line hline
  obtain ⟨hx, hy⟩ := hcontained.isFinite hs hline
  refine ⟨hx, hy, hbottom, htop, ?_, ?_⟩
  · rw [hcontained.contentBox, Rect.containsY, Bool.and_eq_true]
    exact ⟨decide_eq_true hbottom, decide_eq_true htop⟩
  · rw [hleft, hcontained.contentBox]
    rfl

/-- Gaps so large that two of them take the baseline to minus infinity. -/
theorem paginate_contains_lines_of_wide_gaps :
    let text := "a\n\nb"
    let setup : PageSetup := ⟨20, 40, 5, 5, 10, ⟨.ofBits .single 0x7f7fffff⟩⟩
    let pages := stackAll setup [["a"], [], ["b"]]
    paginate text setup (.monospace 3) = .ok pages ∧
    ∀ page ∈ pages, page.contentBox = setup.contentBox ∧
      (∀ line ∈ page.lines, line.x.value.isFinite = true ∧ line.y.value.isFinite = true ∧
        setup.margin ≤ line.y ∧ line.y ≤ setup.height - setup.margin ∧
        page.contentBox.containsY line.y = true ∧ line.x = page.contentBox.left) ∧
      page.lines.Pairwise fun u v => v.y ≤ u.y := by
  intro text setup pages
  have hpages : paginate text setup (.monospace 3) = .ok pages :=
    paginate_eq_ok_iff.2 ⟨by decide +kernel, [["a"], [], ["b"]], by decide +kernel, rfl⟩
  exact ⟨hpages, paginate_contains_lines hpages⟩

end Folio
