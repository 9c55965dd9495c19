import Mathlib.Tactic
import Folio.Proofs.Binary.Spacing
import Folio.Proofs.Layout.Capacity
import Folio.Proofs.Layout.Containment

/-!
Which setups keep the lines of a page apart. A leading that is too small for the numbers at the top
of the page is lost when it is taken away from a baseline, and two lines are printed one over the
other (`paginate_overprints_of_fine_leading`). The numbers further down lie closer together, so that
the first three baselines tell (`PageSetup.Spaced`). Two of them are not enough, since a leading of
half the distance between two numbers is lost at every other number.
-/

namespace Folio

/-- The first two leadings of a page move the baseline down, unless it is below the bottom margin
then. -/
def PageSetup.Spaced (setup : PageSetup) : Prop :=
  ∀ k < 2, ¬ setup.baseline (k + 1) < setup.margin → setup.baseline (k + 1) < setup.baseline k

instance (setup : PageSetup) : Decidable setup.Spaced :=
  inferInstanceAs <| Decidable <|
    ∀ k < 2, ¬ setup.baseline (k + 1) < setup.margin → setup.baseline (k + 1) < setup.baseline k

/-- Each line of the page is below the one before it, and the baseline, which is not above the start
of a page, is below them all. -/
structure Page.Apart (setup : PageSetup) (page : Page) (y : Points) : Prop where
  start : y ≤ setup.start.2
  lines : ∀ line ∈ page.lines, y < line.y
  falling : page.lines.Pairwise fun u v => v.y < u.y

variable {setup : PageSetup}

/-! ### Baselines -/

namespace PageSetup.Accepted

lemma isNaN_baseline (hs : setup.Accepted) (k : Nat) : (setup.baseline k).value.isNaN = false := by
  induction k with
  | zero => exact Binary.isNaN_of_isFinite hs.isFinite_start
  | succ k ih => exact (Binary.isNaN_of_le (hs.sub_leading_le ih)).1

lemma baseline_le (hs : setup.Accepted) {j k : Nat} (hjk : j ≤ k) :
    setup.baseline k ≤ setup.baseline j := by
  induction hjk with
  | refl => exact Binary.le_refl_iff.2 (hs.isNaN_baseline j)
  | step _ ih => exact Binary.le_trans (hs.sub_leading_le (hs.isNaN_baseline _)) ih

/-- If a baseline is not below the bottom margin, then those above it are not. -/
lemma not_baseline_lt_margin (hs : setup.Accepted) {j k : Nat} (hjk : j ≤ k)
    (hk : ¬ setup.baseline k < setup.margin) : ¬ setup.baseline j < setup.margin :=
  fun hj => hk (Binary.lt_of_le_of_lt (hs.baseline_le hjk) hj)

end PageSetup.Accepted

/-- **Each baseline of a page moves down** by a leading if the setup is spaced, wherever between the
bottom margin and the start of the page it is. -/
lemma PageSetup.Spaced.sub_leading_lt (hspaced : setup.Spaced) (hs : setup.Accepted) {y : Points}
    (hmargin : setup.margin ≤ y) (hstart : y ≤ setup.start.2) : y - setup.leading < y := by
  have hone : setup.baseline 1 < setup.baseline 0 := by
    by_cases hbelow : setup.baseline 1 < setup.margin
    · exact Binary.lt_of_lt_of_le hbelow hs.margin_le_start
    · exact hspaced 0 Nat.two_pos hbelow
  exact Binary.sub_lt_self_of_le hs.isFinite_start hs.leading.1 hs.leading.2 hs.margin.1 hs.margin.2
    hmargin hstart hone (hspaced 1 Nat.one_lt_two)

/-! ### Spaced setups keep lines apart -/

namespace Page

variable {page : Page} {y z : Points} {text : String}

lemma Apart.of_le (hpage : page.Apart setup y) (hle : z ≤ y) : page.Apart setup z :=
  ⟨Binary.le_trans hle hpage.start,
    fun line hline => Binary.lt_of_le_of_lt hle (hpage.lines line hline), hpage.falling⟩

/-- A line at the baseline, if the baseline is below it then. -/
lemma Apart.addLine (hpage : page.Apart setup y) (hless : z < y) :
    (page.addLine ⟨text, setup.start.1, y⟩).Apart setup z where
  start := Binary.le_trans (Binary.le_of_lt hless) hpage.start
  lines := forall_mem_addLine (hpage.of_le (Binary.le_of_lt hless)).lines hless
  falling := pairwise_addLine hpage.falling hpage.lines

lemma Apart.isNaN (hpage : page.Apart setup y) : y.value.isNaN = false :=
  (Binary.isNaN_of_le hpage.start).1

end Page

/-- At the start of a page, a page without lines is apart. -/
lemma PageSetup.Accepted.apart_start (hs : setup.Accepted) {page : Page}
    (hempty : page.lines = []) : page.Apart setup setup.start.2 :=
  ⟨hs.start_le_start, by simp [hempty], by simp [hempty]⟩

/-- **Stacking keeps lines apart** if the setup is spaced. -/
lemma PageSetup.Spaced.apart_of_mem_stack (hspaced : setup.Spaced) (hs : setup.Accepted)
    {page : Page} {y : Points} (hpage : page.Apart setup y) (rest : List Step) :
    ∀ q ∈ stack setup page y rest, ∃ z, q.Apart setup z := by
  refine exists_of_mem_stack hs.not_start_lt_margin (fun number => ?_) ?_ ?_ ?_ hpage rest
  · exact hs.apart_start rfl
  · intro page y hpage
    exact hpage.of_le (hs.sub_gap_le hpage.isNaN)
  · intro page y text hpage hmargin
    have hle : setup.margin ≤ y :=
      (Binary.not_lt_iff hpage.isNaN (Binary.isNaN_of_isFinite hs.margin.1)).1 hmargin
    exact hpage.addLine (hspaced.sub_leading_lt hs hle hpage.start)
  · intro page y _ hempty
    exact hs.apart_start hempty

/-! ### Words that fill the width -/

lemma wrap_eq_words {width : String → Except Error Points} {limit : Points}
    (hwide : ∀ text, ∃ w, width text = .ok w ∧ ¬ w < limit) (line : String) :
    wrap width limit line = .ok (words line) := by
  have hfill : ∀ rest word, fill width limit word rest = .ok (word :: rest) := by
    intro rest
    induction rest with
    | nil => exact fun _ => rfl
    | cons next rest ih =>
        intro word
        obtain ⟨w, hw, hlt⟩ := hwide (word ++ " " ++ next)
        exact fill_cons_eq_ok_iff.2 ⟨w, hw, .inr ⟨hlt, next :: rest, ih next, rfl⟩⟩
  rw [wrap_eq_wrapWords]
  cases words line with
  | nil => rfl
  | cons word rest =>
      obtain ⟨w, hw, -⟩ := hwide word
      exact wrapWords_cons_eq_ok_iff.2 ⟨⟨w, hw⟩, hfill rest word⟩

/-- **Words that fill the width** of the content box are printed one below the other, if they fit on
a page. -/
lemma paginate_wide_words {text : String} (hcheck : setup.check = .ok ())
    (hline : logicalLines (normalise text) = [text])
    (hfits : ∀ k < (words text).length, ¬ setup.baseline k < setup.margin) :
    paginate text setup (fun _ => .ok setup.contentBox.width)
      = .ok [setup.pageOf 1 (words text)] := by
  have hwide : ∀ text, ∃ w, Measurer.width (fun _ => .ok setup.contentBox.width) text = .ok w ∧
      ¬ w < setup.contentBox.width := fun _ => ⟨_, rfl, fun h => Binary.lt_asymm h h⟩
  have hsteps : steps [words text] = (words text).map .line ++ [.gap] := by
    rw [steps_cons]
    rfl
  refine paginate_eq_ok_iff.2 ⟨hcheck, [words text], ?_, ?_⟩
  · rw [hline, List.map_singleton, List.map_singleton, wrap_eq_words hwide]
  · rw [stackAll, hsteps, stack_blank_map_line hfits 1 [.gap] (le_refl _)]
    rfl

/-- On a page without gaps, a line is below the one before it if its baseline is. -/
lemma PageSetup.baseline_lt_of_pairwise {number k : Nat} {texts : List String}
    (h : (setup.pageOf number texts).lines.Pairwise fun u v => v.y < u.y)
    (hk : k + 1 < texts.length) : setup.baseline (k + 1) < setup.baseline k := by
  have hlength : (setup.pageOf number texts).lines.length = texts.length := List.length_mapIdx
  have hget := List.pairwise_iff_getElem.1 h k (k + 1) (by omega) (by omega) (Nat.lt_succ_self k)
  simpa [PageSetup.pageOf] using hget

/-! ### Pagination -/

/-- **The lines of every page are apart**, whatever the text and however it is measured, exactly if
the first three lines of a page are, as far as it has room for them. -/
theorem paginate_separates_lines_iff (hcheck : setup.check = .ok ()) :
    (∀ text measure pages, paginate text setup measure = .ok pages →
      ∀ page ∈ pages, page.lines.Pairwise fun u v => v.y < u.y) ↔ setup.Spaced := by
  have hs := PageSetup.check_eq_ok_iff.1 hcheck
  constructor
  · -- two or three words that fill the width
    intro h k hk hmargin
    obtain ⟨text, hline, hlength⟩ : ∃ text, logicalLines (normalise text) = [text] ∧
        (words text).length = k + 2 := by
      interval_cases k
      · exact ⟨"a a", by decide +kernel, by decide +kernel⟩
      · exact ⟨"a a a", by decide +kernel, by decide +kernel⟩
    have hpages := paginate_wide_words hcheck hline fun j hj =>
      hs.not_baseline_lt_margin (show j ≤ k + 1 by omega) hmargin
    exact PageSetup.baseline_lt_of_pairwise (h text _ _ hpages _ (List.mem_singleton_self _))
      (by omega)
  · intro hspaced text measure pages hpages page hpage
    obtain ⟨-, wrapped, -, rfl⟩ := paginate_eq_ok_iff.1 hpages
    obtain ⟨z, hapart⟩ := hspaced.apart_of_mem_stack hs (hs.apart_start rfl) (steps wrapped) page
      hpage
    exact hapart.falling

/-- A small sheet keeps its lines apart. -/
theorem paginate_separates_lines_iff_of_small_sheet :
    let setup : PageSetup := ⟨100, 100, 10, 10, 10, 5⟩
    setup.check = .ok () ∧ setup.Spaced ∧
      ∀ text measure pages, paginate text setup measure = .ok pages →
        ∀ page ∈ pages, page.lines.Pairwise fun u v => v.y < u.y := by
  intro setup
  have hcheck : setup.check = .ok () := by decide +kernel
  have hspaced : setup.Spaced := by decide +kernel
  exact ⟨hcheck, hspaced, (paginate_separates_lines_iff hcheck).2 hspaced⟩

/-- The first leading is half of the distance to the number below the first baseline, and moves it
there. The second one is lost. -/
example :
    let setup : PageSetup :=
      ⟨100, ⟨.ofBits .single 0x42c80001⟩, 10, 10, ⟨.ofBits .single 0x36800000⟩, 0⟩
    setup.check = .ok () ∧ setup.baseline 1 < setup.baseline 0 ∧
      setup.baseline 2 = setup.baseline 1 ∧ ¬ setup.Spaced := by
  decide +kernel

/-- A leading of a millionth of a point is less than half of the distance between `90` and the
number below it. The two lines are printed one over the other. -/
theorem paginate_overprints_of_fine_leading :
    let setup : PageSetup := ⟨100, 100, 10, 10, ⟨(0.000001 : Binary32)⟩, 0⟩
    let page := setup.pageOf 1 ["a", "b"]
    setup.check = .ok () ∧ paginate "a b" setup (.monospace 100) = .ok [page] ∧
      page.lines = [⟨"a", 10, 90⟩, ⟨"b", 10, 90⟩] ∧
      ¬ page.lines.Pairwise fun u v => v.y < u.y := by
  intro setup page
  have hcheck : setup.check = .ok () := by decide +kernel
  have hpages : paginate "a b" setup (.monospace 100) = .ok [page] :=
    paginate_eq_ok_iff.2 ⟨hcheck, [["a", "b"]], by decide +kernel, by decide +kernel⟩
  exact ⟨hcheck, hpages, by decide +kernel, by decide +kernel⟩

end Folio
