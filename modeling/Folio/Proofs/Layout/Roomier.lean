import Mathlib.Tactic
import Folio.Proofs.Layout.PageStructure
import Folio.Proofs.Layout.Placement
import Folio.Proofs.Layout.Setup

/-!
Setups that leave more room.

* `PageSetup.Roomier`: a setup with the same width and margin, whose pages are at least as high and
  whose spacing is not wider.
* `PageSetup.Ahead`: under the roomier setup the open page is an earlier one, or the same one with
  its baseline no further down. Steps down and the choice of a page keep this
  (`PageSetup.Ahead.sub`, `PageSetup.Ahead.settle`), so that no line goes to a later page.
-/

namespace Folio

/-- The setup `roomy` leaves at least the room of `tight`: its pages are as wide, with the same
margin, and not less high, and its spacing is not wider. -/
structure PageSetup.Roomier (roomy tight : PageSetup) : Prop where
  width : roomy.width = tight.width
  margin : roomy.margin = tight.margin
  height : tight.height ≤ roomy.height
  leading : roomy.leading ≤ tight.leading
  gap : roomy.gap ≤ tight.gap

namespace PageSetup

/-- Where the next line goes if the open page has lines: to the page with this number, at this
baseline. -/
def settle (setup : PageSetup) (page : Nat) (y : Points) : Nat × Points :=
  if y < setup.margin then (page + 1, setup.start.2) else (page, y)

/-- The open page `q` with the baseline `z` is an earlier one than `p`, or the same one with a
baseline that is not below `y`. The baseline `y` is not above the start of a page. -/
structure Ahead (tight : PageSetup) (p : Nat) (y : Points) (q : Nat) (z : Points) : Prop where
  le_start : y ≤ tight.start.2
  ahead : q < p ∨ q = p ∧ y ≤ z

variable {roomy tight : PageSetup} {p q : Nat} {y z : Points}

namespace Roomier

lemma contentBox_width (h : roomy.Roomier tight) :
    roomy.contentBox.width = tight.contentBox.width := by
  simp only [Rect.width, contentBox, h.width, h.margin]

lemma start_le (h : roomy.Roomier tight) (ht : tight.Accepted) :
    tight.start.2 ≤ roomy.start.2 := by
  have hmargin : roomy.margin ≤ tight.margin := by
    rw [h.margin]
    exact Binary.le_refl_iff.2 (Binary.isNaN_of_isFinite ht.margin.1)
  exact Binary.sub_le_sub h.height hmargin ht.margin.1 (h.margin ▸ ht.margin.1)

end Roomier

namespace Ahead

/-- A step down keeps the order, if it is not shorter under the tight setup. -/
lemma sub {a b : Points} (hahead : tight.Ahead p y q z) (hle : b ≤ a)
    (ha : a.value.isFinite = true) (hnonneg : ¬ a < 0) (hb : b.value.isFinite = true) :
    tight.Ahead p (y - a) q (z - b) where
  le_start := Binary.le_trans
    (Binary.sub_le_self (Binary.isNaN_of_le hahead.le_start).1 ha hnonneg) hahead.le_start
  ahead := hahead.ahead.imp_right fun ⟨hpage, hle'⟩ => ⟨hpage, Binary.sub_le_sub hle' hle ha hb⟩

/-- The choice of a page for the next line keeps the order. -/
lemma settle (hahead : tight.Ahead p y q z) (h : roomy.Roomier tight) (ht : tight.Accepted) :
    tight.Ahead (tight.settle p y).1 (tight.settle p y).2 (roomy.settle q z).1
      (roomy.settle q z).2 := by
  have hstart := h.start_le ht
  rw [PageSetup.settle, PageSetup.settle, h.margin]
  by_cases hy : y < tight.margin
  · rw [if_pos hy]
    refine ⟨ht.start_le_start, ?_⟩
    by_cases hz : z < tight.margin
    · -- both start a page
      rw [if_pos hz]
      rcases hahead.ahead with hlt | ⟨rfl, -⟩
      · exact .inl (Nat.succ_lt_succ hlt)
      · exact .inr ⟨rfl, hstart⟩
    · rw [if_neg hz]
      refine .inl (Nat.lt_succ_of_le ?_)
      exact hahead.ahead.elim Nat.le_of_lt fun heq => heq.1.le
  · rw [if_neg hy]
    refine ⟨hahead.le_start, ?_⟩
    by_cases hz : z < tight.margin
    · -- only the roomier setup starts a page, so it was on an earlier one
      rw [if_pos hz]
      have hlt : q < p := hahead.ahead.resolve_right fun ⟨_, hle⟩ =>
        hy (Binary.lt_of_le_of_lt hle hz)
      rcases Nat.lt_or_eq_of_le (Nat.succ_le_of_lt hlt) with hlt | heq
      · exact .inl hlt
      · exact .inr ⟨heq, Binary.le_trans hahead.le_start hstart⟩
    · rw [if_neg hz]
      exact hahead.ahead

end Ahead

end PageSetup

/-! ### Placing under both setups -/

/-- The line `v` has the text of `u`, and is not on a later page. -/
def NoLater (u v : Placed) : Prop := v.line.text = u.line.text ∧ v.page ≤ u.page

variable {roomy tight : PageSetup} {p q m n : Nat} {y z : Points}

/-- On a page with lines, a line is placed where it settles. -/
lemma place_line_of_settle (setup : PageSetup) {row : Nat} (hrow : row ≠ 0) (text : String)
    (owner : Nat) (rest : List Step) : ∃ row', place setup p row y owner (.line text :: rest)
      = ⟨(setup.settle p y).1, row', owner, ⟨text, setup.start.1, (setup.settle p y).2⟩⟩ ::
          place setup (setup.settle p y).1 (row' + 1) ((setup.settle p y).2 - setup.leading) owner
            rest := by
  rw [PageSetup.settle]
  by_cases hy : y < setup.margin
  · rw [place_line_of_full hy hrow, if_pos hy]
    exact ⟨0, rfl⟩
  · rw [place_line_of_fits hy, if_neg hy]
    exact ⟨row, rfl⟩

/-- **No line goes to a later page** under the roomier setup, if it starts ahead and both open pages
have lines. -/
theorem forall₂_place (h : roomy.Roomier tight) (ht : tight.Accepted) (hr : roomy.Accepted)
    (hahead : tight.Ahead p y q z) (hm : m ≠ 0) (hn : n ≠ 0) (owner : Nat) (rest : List Step) :
    List.Forall₂ NoLater (place tight p m y owner rest) (place roomy q n z owner rest) := by
  induction rest generalizing p y q z m n owner with
  | nil => exact .nil
  | cons step rest ih =>
      cases step with
      | gap =>
          have hgap := hahead.sub h.gap ht.gap_finite ht.gap_nonneg hr.gap_finite
          exact ih hgap hm hn (owner + 1)
      | line text =>
          obtain ⟨m', hm'⟩ := place_line_of_settle (p := p) (y := y) tight hm text owner rest
          obtain ⟨n', hn'⟩ := place_line_of_settle (p := q) (y := z) roomy hn text owner rest
          have hsettled := hahead.settle h ht
          have hbelow := hsettled.sub h.leading ht.leading.1 (Binary.lt_asymm ht.leading.2)
            hr.leading.1
          rw [hm', hn']
          refine .cons ⟨rfl, ?_⟩ (ih hbelow (Nat.succ_ne_zero m') (Nat.succ_ne_zero n') owner)
          exact hsettled.ahead.elim Nat.le_of_lt fun heq => heq.1.le

lemma number_of_mem_rows {page : Page} {place : Nat × Nat × Line} (h : place ∈ page.rows) :
    place.1 = page.number := by
  obtain ⟨i, hi, rfl⟩ := List.mem_mapIdx.1 h
  rfl

lemma exists_number_iff {setup : PageSetup} {wrapped : List (List String)} {number : Nat} :
    (∃ page ∈ stackAll setup wrapped, page.number = number) ↔
      1 ≤ number ∧ number ≤ (stackAll setup wrapped).length := by
  have hnumbers : (stackAll setup wrapped).map Page.number
      = List.range' 1 (stackAll setup wrapped).length := map_number_stack _ _ _ _
  rw [← List.mem_map, hnumbers, List.mem_range'_1]
  omega

/-- Stacking under both setups keeps the order, if the first logical line has a fragment. That one
is placed at the start of the first page, since there the margin leaves room for it. -/
lemma forall₂_rows_stackAll (h : roomy.Roomier tight) (ht : tight.Accepted) (hr : roomy.Accepted)
    {fragments : List String} (hne : fragments ≠ []) (wrapped : List (List String)) :
    List.Forall₂ (fun u v => v.1 ≤ u.1)
      ((stackAll tight (fragments :: wrapped)).flatMap Page.rows)
      ((stackAll roomy (fragments :: wrapped)).flatMap Page.rows) := by
  have hahead : tight.Ahead 1 tight.start.2 1 roomy.start.2 :=
    ⟨ht.start_le_start, .inr ⟨rfl, h.start_le ht⟩⟩
  have hplaced : List.Forall₂ NoLater
      (place tight 1 0 tight.start.2 0 (steps (fragments :: wrapped)))
      (place roomy 1 0 roomy.start.2 0 (steps (fragments :: wrapped))) := by
    rw [steps_cons]
    cases fragments with
    | nil => exact absurd rfl hne
    | cons text fragments =>
        rw [List.map_cons, List.cons_append, place_line_of_fits ht.not_start_lt_margin,
          place_line_of_fits hr.not_start_lt_margin]
        have hbelow := hahead.sub h.leading ht.leading.1 (Binary.lt_asymm ht.leading.2) hr.leading.1
        exact .cons ⟨rfl, le_rfl⟩
          (forall₂_place h ht hr hbelow Nat.one_ne_zero Nat.one_ne_zero 0 _)
  rw [stackAll, stackAll, flatMap_rows_stack tight _ _ 0, flatMap_rows_stack roomy _ _ 0]
  have hpages := hplaced.imp fun _ _ huv => huv.2
  exact List.forall₂_map_left_iff.2 (List.forall₂_map_right_iff.2 hpages)

/-- If no line is on a later page, there are no more pages, since the last page has a line. -/
lemma length_stackAll_le {wrapped : List (List String)} (hne : wrapped.flatten ≠ [])
    (h : List.Forall₂ (fun u v => v.1 ≤ u.1) ((stackAll tight wrapped).flatMap Page.rows)
      ((stackAll roomy wrapped).flatMap Page.rows)) :
    (stackAll roomy wrapped).length ≤ (stackAll tight wrapped).length := by
  obtain ⟨last, hlast, hnumber⟩ := exists_number_iff.2
    ⟨List.length_pos_of_ne_nil (stack_ne_nil _ _ _ _), le_refl (stackAll roomy wrapped).length⟩
  obtain ⟨v, hv⟩ : ∃ v, v ∈ last.rows := by
    have hlines := lines_ne_nil_of_mem_stackAll hne last hlast
    rw [← Page.map_line_rows, ne_eq, List.map_eq_nil_iff] at hlines
    exact List.exists_mem_of_ne_nil _ hlines
  obtain ⟨i, hi, rfl⟩ := List.mem_iff_getElem.1 (List.mem_flatMap_of_mem hlast hv)
  obtain ⟨hlength, hget⟩ := List.forall₂_iff_get.1 h
  obtain ⟨page, hpage, hu⟩ := List.mem_flatMap.1 (List.getElem_mem (hlength ▸ hi))
  have hle := hget i (hlength ▸ hi) hi
  rw [List.get_eq_getElem, List.get_eq_getElem, number_of_mem_rows hv, number_of_mem_rows hu,
    hnumber] at hle
  exact hle.trans (exists_number_iff.1 ⟨page, hpage, rfl⟩).2

/-- **More room never takes more pages.** Where a setup has higher pages or tighter spacing, a text
whose first logical line has a word keeps its lines, none of them goes to a later page, and there
are no more pages. Both setups have to be accepted, and the text to be measured under one of
them. -/
theorem paginate_of_roomier {text : String} {measure : Measurer} {pages : List Page}
    (h : roomy.Roomier tight) (hroomy : roomy.check = .ok ())
    (htight : paginate text tight measure = .ok pages)
    (hword : ∃ line ∈ (logicalLines (normalise text)).head?, words line ≠ []) :
    ∃ pages', paginate text roomy measure = .ok pages' ∧
      (readingOrder pages').map Line.text = (readingOrder pages).map Line.text ∧
      List.Forall₂ (fun u v => v.1 ≤ u.1) (pages.flatMap Page.rows) (pages'.flatMap Page.rows) ∧
      pages'.length ≤ pages.length := by
  obtain ⟨hcheck, wrapped, hwrapped, rfl⟩ := paginate_eq_ok_iff.1 htight
  have ht := PageSetup.check_eq_ok_iff.1 hcheck
  have hr := PageSetup.check_eq_ok_iff.1 hroomy
  obtain ⟨fragments, rest, rfl, hne⟩ : ∃ fragments rest, wrapped = fragments :: rest ∧
      fragments ≠ [] := by
    obtain ⟨line, hline, hword⟩ := hword
    obtain ⟨lines, hlines⟩ := List.head?_eq_some_iff.1 hline
    rw [hlines] at hwrapped
    cases wrapped with
    | nil => simp at hwrapped
    | cons fragments rest =>
        exact ⟨fragments, rest, rfl, fun hnil =>
          hword ((wrap_eq_nil_iff (List.cons.inj hwrapped).1).1 hnil)⟩
  have hrows := forall₂_rows_stackAll h ht hr hne rest
  have hflatten : (fragments :: rest).flatten ≠ [] := by simp [hne]
  refine ⟨stackAll roomy (fragments :: rest), paginate_eq_ok_iff.2 ⟨hroomy, _, ?_, rfl⟩, ?_, hrows,
    length_stackAll_le hflatten hrows⟩
  · rw [h.contentBox_width]
    exact hwrapped
  · rw [map_text_readingOrder_stackAll, map_text_readingOrder_stackAll]

/-- Both setups break the page, the roomier one two lines later. -/
theorem paginate_of_roomier_of_small_sheets :
    let text := "a b c\nd\n\ne\nf\ng"
    let tight : PageSetup := ⟨20, 40, 5, 5, 10, 5⟩
    let roomy : PageSetup := ⟨20, 50, 5, 5, 5, 5⟩
    let pages := stackAll tight [["a b", "c"], ["d"], [], ["e"], ["f"], ["g"]]
    roomy.Roomier tight ∧ roomy.check = .ok () ∧
    paginate text tight (.monospace 3) = .ok pages ∧
    (∃ line ∈ (logicalLines (normalise text)).head?, words line ≠ []) ∧
    ∃ pages', paginate text roomy (.monospace 3) = .ok pages' ∧
      (readingOrder pages').map Line.text = (readingOrder pages).map Line.text ∧
      List.Forall₂ (fun u v => v.1 ≤ u.1) (pages.flatMap Page.rows) (pages'.flatMap Page.rows) ∧
      pages'.length ≤ pages.length := by
  intro text tight roomy pages
  have hroom : roomy.Roomier tight :=
    ⟨rfl, rfl, by decide +kernel, by decide +kernel, by decide +kernel⟩
  have hroomy : roomy.check = .ok () := by decide +kernel
  have htight : paginate text tight (.monospace 3) = .ok pages :=
    paginate_eq_ok_iff.2 ⟨by decide +kernel, [["a b", "c"], ["d"], [], ["e"], ["f"], ["g"]],
      by decide +kernel, rfl⟩
  have hword : ∃ line ∈ (logicalLines (normalise text)).head?, words line ≠ [] :=
    ⟨"a b c", by decide +kernel, by decide +kernel⟩
  exact ⟨hroom, hroomy, htight, hword, paginate_of_roomier hroom hroomy htight hword⟩

/-- Without a word on the first logical line, the tighter gaps may take more pages: here the wider
ones run off the page, so that the line behind them goes back to its start. -/
example :
    (stackAll ⟨20, 40, 5, 5, 10, 11⟩ [[], [], [], ["a"], ["b"]]).length = 1 ∧
    (stackAll ⟨20, 40, 5, 5, 10, 10⟩ [[], [], [], ["a"], ["b"]]).length = 2 := by
  decide +kernel

end Folio
