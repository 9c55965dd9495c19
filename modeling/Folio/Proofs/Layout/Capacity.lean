import Mathlib.Tactic
import Mathlib.Algebra.Order.Floor.Div
import Folio.Proofs.Binary.Whole
import Folio.Proofs.Layout.Conservation
import Folio.Proofs.Layout.Setup

/-!
How many lines a page holds. Both edges of the content box may hold a baseline, so that a page has
one line more than there are leadings in the height of its content.

* `PageSetup.Capacity`: as many baselines as are stated, and not more, are above the bottom margin.
* `stack_fills_pages`: the texts are cut into pages, all of which but the last one are full.
* `PageSetup.Whole.capacity`: among whole numbers of points the capacity is a quotient.
-/

namespace Folio

/-- A whole number of points, which is exact up to `2 ^ 24`. -/
def Points.whole (n : Int) : Points := ⟨.ofInt n⟩

namespace PageSetup

/-- The baseline that has `k` lines above it on its page, and no gap between them. -/
def baseline (setup : PageSetup) : Nat → Points
  | 0 => setup.start.2
  | k + 1 => setup.baseline k - setup.leading

/-- The page with the given texts, one line below the other. -/
def pageOf (setup : PageSetup) (number : Nat) (texts : List String) : Page :=
  { Page.blank number setup with
    lines := texts.mapIdx fun k text => ⟨text, setup.start.1, setup.baseline k⟩ }

/-- The pages of the given texts, with `c` lines on each of them as long as there are so many. -/
def pagesOf (setup : PageSetup) (c number : Nat) (texts : List String) : List Page :=
  (List.range (texts.length ⌈/⌉ c)).map fun i =>
    setup.pageOf (number + i) ((texts.drop (i * c)).take c)

/-- A page has room for `c` lines without gaps between them, and for no further one. -/
structure Capacity (setup : PageSetup) (c : Nat) : Prop where
  pos : 0 < c
  fits : ∀ k < c, ¬ setup.baseline k < setup.margin
  full : setup.baseline c < setup.margin

end PageSetup

/-! ### Filling pages -/

section

variable {setup : PageSetup} {c number : Nat} {texts : List String}

lemma PageSetup.addLine_pageOf (setup : PageSetup) (number : Nat) (texts : List String)
    (text : String) :
    (setup.pageOf number texts).addLine ⟨text, setup.start.1, setup.baseline texts.length⟩
      = setup.pageOf number (texts ++ [text]) := by
  simp [pageOf, Page.addLine, List.mapIdx_append]

/-- **Lines that fit** go to the open page. -/
lemma stack_map_line (hfits : ∀ k < c, ¬ setup.baseline k < setup.margin) (number : Nat)
    (placed : List String) (more : List Step) (hlength : placed.length + texts.length ≤ c) :
    stack setup (setup.pageOf number placed) (setup.baseline placed.length)
        (texts.map .line ++ more)
      = stack setup (setup.pageOf number (placed ++ texts))
          (setup.baseline (placed ++ texts).length) more := by
  induction texts generalizing placed with
  | nil => rw [List.append_nil, List.map_nil, List.nil_append]
  | cons text texts ih =>
      rw [List.length_cons] at hlength
      have hnext : setup.baseline placed.length - setup.leading
          = setup.baseline (placed ++ [text]).length := by
        rw [List.length_append, List.length_singleton, PageSetup.baseline]
      rw [List.map_cons, List.cons_append, stack_line_of_fits (hfits _ (by omega)),
        PageSetup.addLine_pageOf, hnext, ih (placed ++ [text]) (by simp; omega),
        List.append_assoc, List.singleton_append]

lemma stack_blank_map_line (hfits : ∀ k < c, ¬ setup.baseline k < setup.margin) (number : Nat)
    (more : List Step) (hlength : texts.length ≤ c) :
    stack setup (.blank number setup) setup.start.2 (texts.map .line ++ more)
      = stack setup (setup.pageOf number texts) (setup.baseline texts.length) more :=
  stack_map_line hfits number [] more (by simpa using hlength)

/-- **The lines after a full page** go where they would go on a blank page, which is the next
one. -/
lemma stack_blank_of_capacity (h : setup.Capacity c) (number : Nat) {full rest : List String}
    (hfull : full.length = c) (hrest : rest ≠ []) (more : List Step) :
    stack setup (.blank number setup) setup.start.2 ((full ++ rest).map .line ++ more)
      = setup.pageOf number full ::
          stack setup (.blank (number + 1) setup) setup.start.2 (rest.map .line ++ more) := by
  obtain ⟨text, others, rfl⟩ := List.exists_cons_of_ne_nil hrest
  have hlines : (setup.pageOf number full).lines ≠ [] := by
    refine List.ne_nil_of_length_pos ?_
    rw [PageSetup.pageOf, List.length_mapIdx, hfull]
    exact h.pos
  have hend : setup.baseline full.length < setup.margin := by
    rw [hfull]
    exact h.full
  have hstart : ¬ setup.start.2 < setup.margin := h.fits 0 h.pos
  rw [List.map_append, List.append_assoc, stack_blank_map_line h.fits number _ hfull.le,
    List.map_cons, List.cons_append, stack_line_of_full hend hlines, stack_line_of_fits hstart]
  rfl

lemma pagesOf_of_length_le (hne : texts ≠ []) (hle : texts.length ≤ c) :
    setup.pagesOf c number texts = [setup.pageOf number texts] := by
  have hlength := List.length_pos_of_ne_nil hne
  have hone : texts.length ⌈/⌉ c = 1 := by
    rw [Nat.ceilDiv_eq_add_pred_div]
    exact Nat.div_eq_of_lt_le (by omega) (by omega)
  simp [PageSetup.pagesOf, hone, List.take_of_length_le hle]

/-- The texts behind a full page have pages of their own. -/
lemma pagesOf_append {full rest : List String} (hfull : 0 < full.length) :
    setup.pagesOf full.length number (full ++ rest)
      = setup.pageOf number full :: setup.pagesOf full.length (number + 1) rest := by
  have hcount : (full ++ rest).length ⌈/⌉ full.length = rest.length ⌈/⌉ full.length + 1 := by
    rw [Nat.ceilDiv_eq_add_pred_div, Nat.ceilDiv_eq_add_pred_div, ← Nat.add_div_right _ hfull,
      List.length_append]
    congr 1
    omega
  rw [PageSetup.pagesOf, PageSetup.pagesOf, hcount, List.range_succ_eq_map, List.map_cons,
    List.map_map]
  congr 1
  · simp
  · refine List.map_congr_left fun i _ => ?_
    rw [Function.comp_apply, Nat.succ_mul, Nat.add_comm (i * full.length),
      List.drop_length_add_append, Nat.add_right_comm, Nat.add_assoc]

/-- **Stacking fills the pages** one after the other. -/
theorem stack_fills_pages (h : setup.Capacity c) (number : Nat) (hne : texts ≠ []) :
    stack setup (.blank number setup) setup.start.2 (texts.map .line ++ [.gap])
      = setup.pagesOf c number texts := by
  induction hn : texts.length using Nat.strong_induction_on generalizing number texts with
  | _ n ih =>
    subst hn
    rcases Nat.lt_or_ge c texts.length with hlt | hle
    · -- the first page is full, and the others are those of the texts behind it
      obtain ⟨full, rest, rfl, rfl⟩ : ∃ full rest, texts = full ++ rest ∧ full.length = c :=
        ⟨texts.take c, texts.drop c, (List.take_append_drop c texts).symm,
          List.length_take_of_le hlt.le⟩
      have hpos := h.pos
      rw [List.length_append] at hlt ih
      have hrest : rest ≠ [] := List.ne_nil_of_length_pos (by omega)
      rw [stack_blank_of_capacity h number rfl hrest, pagesOf_append hpos,
        ih rest.length (by omega) (number + 1) hrest rfl]
    · calc stack setup (.blank number setup) setup.start.2 (texts.map .line ++ [.gap])
          = stack setup (setup.pageOf number texts) (setup.baseline texts.length) [.gap] :=
            stack_blank_map_line h.fits number [.gap] hle
        _ = [setup.pageOf number texts] := rfl
        _ = setup.pagesOf c number texts := (pagesOf_of_length_le hne hle).symm

/-- If texts are cut from the front, all parts but the last one are full. -/
lemma length_take_drop_mul (hc : 0 < c) (i : Nat) :
    ((texts.drop (i * c)).take c).length
      = if i + 1 < texts.length ⌈/⌉ c then c else texts.length - i * c := by
  have hlast : i + 1 < texts.length ⌈/⌉ c ↔ i * c + c < texts.length := by
    rw [← not_le, ceilDiv_le_iff_le_mul hc, Nat.mul_comm, Nat.succ_mul, not_le]
  rw [List.length_take, List.length_drop]
  split_ifs with hfull
  · rw [hlast] at hfull
    exact Nat.min_eq_left (by omega)
  · rw [hlast] at hfull
    exact Nat.min_eq_right (by omega)

end

/-! ### Whole numbers of points -/

namespace PageSetup

/-- The height, the margin and the leading are whole numbers of points, and small enough for their
differences to be exact. -/
structure Whole (setup : PageSetup) (height margin leading : Nat) : Prop where
  height_eq : setup.height = .whole height
  margin_eq : setup.margin = .whole margin
  leading_eq : setup.leading = .whole leading
  height_lt : height < 2 ^ 23
  margin_lt : margin < 2 ^ 23
  leading_lt : leading < 2 ^ 23

variable {setup : PageSetup} {height margin leading : Nat}

namespace Whole

lemma margin_add_margin_le (hw : setup.Whole height margin leading) (hs : setup.Accepted) :
    margin + margin ≤ height := by
  obtain ⟨hheight, hmargin, -, hheight', hmargin', -⟩ := hw
  have hone : (0 : Int) < Format.single.one := by decide +kernel
  have hm : setup.margin.value.inUnits? = some (margin * Format.single.one) := by
    rw [hmargin]
    exact Binary.inUnits?_ofInt (by omega)
  have hh : setup.height.value.inUnits? = some (height * Format.single.one) := by
    rw [hheight]
    exact Binary.inUnits?_ofInt (by omega)
  have hle : ((margin : Int) + margin) * Format.single.one ≤ height * Format.single.one := by
    have hexact := hs.exact_margin_le hm hh
    rw [Int.add_mul]
    omega
  have hle' := Int.le_of_mul_le_mul_right hle hone
  omega

lemma leading_pos (hw : setup.Whole height margin leading) (hs : setup.Accepted) :
    0 < leading := by
  have hpos : (Binary.ofInt 0 : Binary32) < .ofInt leading := by
    have hleading := hs.leading.2
    rwa [hw.leading_eq] at hleading
  have hlt := hw.leading_lt
  rw [Binary.ofInt_lt_ofInt (by omega) (by omega)] at hpos
  omega

/-- **The baselines** of a page without gaps are whole numbers, too. -/
lemma baseline_eq_whole (hw : setup.Whole height margin leading) (hs : setup.Accepted) {k : Nat}
    (hk : k * leading ≤ 2 ^ 24) :
    setup.baseline k = .whole ((height : Int) - margin - k * leading) := by
  have hroom := hw.margin_add_margin_le hs
  obtain ⟨hheight, hmargin, hleading, hheight', hmargin', hleading'⟩ := hw
  induction k with
  | zero =>
      calc setup.baseline 0
          = setup.height - setup.margin := rfl
        _ = ⟨.ofInt height - .ofInt margin⟩ := by
            rw [hheight, hmargin]
            rfl
        _ = .whole ((height : Int) - margin - (0 : Nat) * leading) := by
            rw [Binary.ofInt_sub_ofInt (by omega) (by omega), Points.whole]
            simp
  | succ k ih =>
      rw [Nat.succ_mul] at hk
      have hsize : ((height : Int) - margin - k * leading).natAbs ≤ 2 ^ 24 := by omega
      calc setup.baseline (k + 1)
          = setup.baseline k - setup.leading := rfl
        _ = ⟨.ofInt ((height : Int) - margin - k * leading) - .ofInt leading⟩ := by
            rw [ih (by omega), hleading]
            rfl
        _ = .whole ((height : Int) - margin - (k + 1 : Nat) * leading) := by
            rw [Binary.ofInt_sub_ofInt hsize (by omega), Points.whole]
            congr 2
            push_cast
            ring

/-- **The capacity** of a page is the number of leadings in the height of its content, and one
more. -/
lemma capacity (hw : setup.Whole height margin leading) (hs : setup.Accepted) :
    setup.Capacity ((height - 2 * margin) / leading + 1) := by
  have hroom := hw.margin_add_margin_le hs
  have hpos := hw.leading_pos hs
  have hheight := hw.height_lt
  have hleading := hw.leading_lt
  have hmargin : setup.margin.value = .ofInt margin := congrArg Points.value hw.margin_eq
  have hlast := Nat.div_mul_le_self (height - 2 * margin) leading
  have hnext : height - 2 * margin < ((height - 2 * margin) / leading + 1) * leading :=
    Nat.lt_mul_of_div_lt (Nat.lt_succ_self _) hpos
  have hbelow : ∀ k, k * leading ≤ height - 2 * margin + leading →
      (setup.baseline k < setup.margin ↔ height - 2 * margin < k * leading) := by
    intro k hk
    change (setup.baseline k).value < setup.margin.value ↔ _
    rw [hw.baseline_eq_whole hs (by omega), hmargin, Points.whole,
      Binary.ofInt_lt_ofInt (by omega) (by omega)]
    omega
  refine ⟨Nat.succ_pos _, fun k hk => ?_, ?_⟩
  · have hle : k * leading ≤ height - 2 * margin :=
      (Nat.mul_le_mul_right _ (Nat.le_of_lt_succ hk)).trans hlast
    rw [hbelow k (by omega)]
    omega
  · rw [hbelow _ (by rw [Nat.succ_mul]; omega)]
    exact hnext

lemma lines_pageOf (hw : setup.Whole height margin leading) (hs : setup.Accepted) (number : Nat)
    {texts : List String} (hlength : texts.length ≤ (height - 2 * margin) / leading + 1) :
    (setup.pageOf number texts).lines = texts.mapIdx fun j text =>
      ⟨text, setup.start.1, .whole ((height : Int) - margin - j * leading)⟩ := by
  have hheight := hw.height_lt
  have hlast := Nat.div_mul_le_self (height - 2 * margin) leading
  refine List.mapIdx_eq_mapIdx_iff.2 fun j hj => ?_
  have hle : j * leading ≤ (height - 2 * margin) / leading * leading :=
    Nat.mul_le_mul_right _ (by omega)
  rw [hw.baseline_eq_whole hs (by omega)]

end Whole

end PageSetup

/-! ### Pagination -/

/-- **The pages of a text of one logical line.** If the height of the page, the margin and the
leading are whole numbers of points, a page has room for one line more than there are leadings in
the height of its content. All pages but the last one are full, the last one has the rest, and the
lines of every page start one leading below the other from the upper edge of the content box. -/
theorem paginate_fills_pages {text line : String} {setup : PageSetup} {measure : Measurer}
    {fragments : List String} {height margin leading : Nat} (hcheck : setup.check = .ok ())
    (hwhole : setup.Whole height margin leading)
    (hline : logicalLines (normalise text) = [line])
    (hwrap : wrap measure.width setup.contentBox.width line = .ok fragments)
    (hne : fragments ≠ []) :
    let capacity := (height - 2 * margin) / leading + 1
    ∃ pages, paginate text setup measure = .ok pages ∧
      pages.length = fragments.length ⌈/⌉ capacity ∧
      ∀ i page, pages[i]? = some page →
        page.lines = ((fragments.drop (i * capacity)).take capacity).mapIdx (fun j fragment =>
          ⟨fragment, setup.start.1, .whole ((height : Int) - margin - j * leading)⟩) ∧
        page.lines.length
          = if i + 1 < pages.length then capacity else fragments.length - i * capacity := by
  intro capacity
  have hs := PageSetup.check_eq_ok_iff.1 hcheck
  have hstack : stackAll setup [fragments] = setup.pagesOf capacity 1 fragments := by
    have hsteps : steps [fragments] = fragments.map .line ++ [.gap] := by
      rw [steps_cons]
      rfl
    rw [stackAll, hsteps, stack_fills_pages (hwhole.capacity hs) 1 hne]
  refine ⟨stackAll setup [fragments], paginate_eq_ok_iff.2 ⟨hcheck, [fragments], ?_, rfl⟩, ?_, ?_⟩
  · rw [hline, List.map_singleton, hwrap, List.map_singleton]
  · rw [hstack, PageSetup.pagesOf, List.length_map, List.length_range]
  · intro i page hi
    rw [hstack, PageSetup.pagesOf] at hi ⊢
    simp only [List.getElem?_map, Option.map_eq_some_iff, List.getElem?_eq_some_iff,
      List.length_range, List.getElem_range] at hi
    obtain ⟨_, ⟨-, rfl⟩, rfl⟩ := hi
    have hlines := hwhole.lines_pageOf hs (1 + i)
      (List.length_take_le capacity (fragments.drop (i * capacity)))
    refine ⟨hlines, ?_⟩
    rw [hlines, List.length_mapIdx, length_take_drop_mul (Nat.succ_pos _), List.length_map,
      List.length_range]

/-- Twelve words that are too wide to share a line take two pages of a sheet of 100 by 100 points:
nine lines and the other three. -/
theorem paginate_fills_pages_of_small_sheet :
    let setup : PageSetup := ⟨100, 100, 10, 12, 10, 5⟩
    let text := "a b c d e f g h i j k l"
    ∃ pages, paginate text setup (.monospace 50) = .ok pages ∧ pages.length = 2 ∧
      ∀ i page, pages[i]? = some page →
        page.lines = (((words text).drop (i * 9)).take 9).mapIdx (fun j fragment =>
          ⟨fragment, 10, .whole (100 - 10 - j * 10)⟩) ∧
        page.lines.length = if i + 1 < 2 then 9 else 12 - i * 9 := by
  intro setup text
  have hwhole : setup.Whole 100 10 10 :=
    ⟨by decide +kernel, by decide +kernel, by decide +kernel, by decide, by decide, by decide⟩
  have hline : logicalLines (normalise text) = [text] := by decide +kernel
  have hwrap : wrap (Measurer.monospace 50).width setup.contentBox.width text
      = (.ok (words text) : Except Error _) := by decide +kernel
  have hcount : (words text).length = 12 := by decide +kernel
  obtain ⟨pages, hpages, hlength, hlines⟩ := paginate_fills_pages
    (show setup.check = .ok () by decide +kernel) hwhole hline hwrap (by decide +kernel)
  rw [hcount] at hlength hlines
  have htwo : pages.length = 2 := hlength
  rw [htwo] at hlines
  exact ⟨pages, hpages, htwo, hlines⟩

end Folio
