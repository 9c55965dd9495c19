import Mathlib.Tactic
import Folio.Proofs.Layout.Conservation
import Folio.Proofs.Layout.LineWords

/-!
The pages of a text are numbered from one, have the boxes of their setup, and have lines, unless the
text has no word (`paginate_structures_pages`). A line that does not fit completes the open page
only if that has lines, so that no page is left without.
-/

namespace Folio

variable {setup : PageSetup}

lemma boxes_of_mem_stackAll {wrapped : List (List String)} {page : Page}
    (hpage : page ∈ stackAll setup wrapped) :
    page.mediaBox = setup.mediaBox ∧ page.contentBox = setup.contentBox :=
  forall_mem_stack (P := fun p => p.mediaBox = setup.mediaBox ∧ p.contentBox = setup.contentBox)
    (fun _ _ => ⟨rfl, rfl⟩) (fun _ _ _ hp => hp) ⟨rfl, rfl⟩ setup.start.2 (steps wrapped) page hpage

/-- Once a page has lines, all pages have lines. -/
lemma lines_ne_nil_of_mem_stack_of_ne_nil {page : Page} (hpage : page.lines ≠ []) (y : Points)
    (rest : List Step) : ∀ q ∈ stack setup page y rest, q.lines ≠ [] :=
  forall_mem_stack (P := fun p => p.lines ≠ []) (fun _ _ => List.cons_ne_nil _ _)
    (fun _ _ _ _ => by simp) hpage y rest

/-- **No page is without lines**, if some line is to come: it goes to the open page, or it completes
the open page because that has lines. -/
lemma lines_ne_nil_of_mem_stack {text : String} {rest : List Step} (htext : .line text ∈ rest)
    (page : Page) (y : Points) : ∀ q ∈ stack setup page y rest, q.lines ≠ [] := by
  induction rest generalizing y with
  | nil => simp at htext
  | cons step rest ih =>
      cases step with
      | gap => exact ih (by simpa using htext) _
      | line first =>
          by_cases hy : y < setup.margin
          · by_cases hempty : page.lines = []
            · rw [stack_line_of_blank hy hempty]
              exact lines_ne_nil_of_mem_stack_of_ne_nil (by simp) _ rest
            · rw [stack_line_of_full hy hempty]
              exact List.forall_mem_cons.2
                ⟨hempty, lines_ne_nil_of_mem_stack_of_ne_nil (by simp) _ rest⟩
          · rw [stack_line_of_fits hy]
            exact lines_ne_nil_of_mem_stack_of_ne_nil (by simp) _ rest

/-- If there is a fragment, every page has a line. -/
lemma lines_ne_nil_of_mem_stackAll {wrapped : List (List String)} (h : wrapped.flatten ≠ []) :
    ∀ page ∈ stackAll setup wrapped, page.lines ≠ [] := by
  obtain ⟨text, htext⟩ := List.exists_mem_of_ne_nil _ h
  rw [← filterMap_text_steps, List.mem_filterMap] at htext
  obtain ⟨step, hstep, hsome⟩ := htext
  cases step with
  | gap => simp [Step.text?] at hsome
  | line other => exact lines_ne_nil_of_mem_stack hstep _ _

/-- Without a fragment there is one page without lines. -/
lemma stackAll_of_flatten_eq_nil {wrapped : List (List String)} (h : wrapped.flatten = []) :
    stackAll setup wrapped = [.blank 1 setup] := by
  have hgaps : ∀ step ∈ steps wrapped, step = .gap := by
    intro step hstep
    cases step with
    | gap => rfl
    | line text =>
        have htext : text ∈ wrapped.flatten := by
          rw [← filterMap_text_steps]
          exact List.mem_filterMap.2 ⟨.line text, hstep, rfl⟩
        simp [h] at htext
  exact stack_append_gaps setup _ _ [] hgaps

/-! ### Pagination -/

lemma flatten_eq_nil_iff {width : String → Except Error Points} {limit : Points}
    {lines : List String} {wrapped : List (List String)}
    (h : lines.map (wrap width limit) = wrapped.map .ok) :
    wrapped.flatten = [] ↔ lines.flatMap words = [] := by
  rw [← flatMap_splitWords_flatten h, List.flatMap_eq_nil_iff]
  constructor
  · intro hnil fragment hfragment
    simp [hnil] at hfragment
  · intro hwords
    refine List.eq_nil_iff_forall_not_mem.2 fun fragment hfragment => ?_
    have hparts := hwords fragment hfragment
    rw [splitWords, List.map_eq_nil_iff] at hparts
    exact List.splitOn_ne_nil ' ' fragment.toList hparts

/-- **The pages of a text** are numbered from one and have the boxes of their setup. There is at
least one. Every page has a line, unless the text has no word, which is to say that it has nothing
but blanks; then there is exactly one page, without lines. -/
theorem paginate_structures_pages {text : String} {setup : PageSetup} {measure : Measurer}
    {pages : List Page} (h : paginate text setup measure = .ok pages) :
    let allWords := (logicalLines (normalise text)).flatMap words
    pages ≠ [] ∧
    (∀ i page, pages[i]? = some page →
      page.number = i + 1 ∧ page.mediaBox = setup.mediaBox ∧ page.contentBox = setup.contentBox) ∧
    (allWords ≠ [] → ∀ page ∈ pages, page.lines ≠ []) ∧
    (allWords = [] → pages = [.blank 1 setup]) ∧
    (allWords = [] ↔ ∀ c ∈ text.toList, IsBlank c) := by
  obtain ⟨-, wrapped, hwrapped, rfl⟩ := paginate_eq_ok_iff.1 h
  intro allWords
  have hflatten : wrapped.flatten = [] ↔ allWords = [] := flatten_eq_nil_iff hwrapped
  have hblank : allWords = [] ↔ ∀ c ∈ text.toList, IsBlank c := by
    rw [← forall_mem_lineWords_eq_nil_iff, lineWords, List.forall_mem_map]
    exact List.flatMap_eq_nil_iff
  refine ⟨stack_ne_nil _ _ _ _, fun i page hi => ⟨?_, ?_⟩, fun hwords => ?_, fun hnil => ?_, hblank⟩
  · have hnumbers : ((stackAll setup wrapped).map Page.number)[i]? = some page.number := by
      rw [List.getElem?_map, hi]
      rfl
    have hlt : i < (stackAll setup wrapped).length := (List.getElem?_eq_some_iff.1 hi).1
    rw [stackAll, map_number_stack, ← stackAll, List.getElem?_range' hlt] at hnumbers
    have hnumber : 1 + 1 * i = page.number := Option.some.inj hnumbers
    omega
  · exact boxes_of_mem_stackAll (List.mem_of_getElem? hi)
  · exact lines_ne_nil_of_mem_stackAll fun hnil => hwords (hflatten.1 hnil)
  · exact stackAll_of_flatten_eq_nil (hflatten.2 hnil)

/-- Fourteen blank lines that run off the first page, a line after them that takes two pages, and
blank lines at the end; and a text of blanks only. -/
theorem paginate_structures_pages_of_small_sheet :
    let setup : PageSetup := ⟨20, 40, 5, 5, 10, 5⟩
    let text := "\n\n\n\n\n\n\n\n\n\n\n\n\n\na b c d e f g h i\n\n"
    (∃ pages, paginate text setup (.monospace 3) = .ok pages ∧ pages.length = 2 ∧
      (∀ i page, pages[i]? = some page → page.number = i + 1 ∧ page.mediaBox = setup.mediaBox ∧
        page.contentBox = setup.contentBox) ∧
      ∀ page ∈ pages, page.lines ≠ []) ∧
    paginate " \t\r\n\r" setup (.monospace 3) = .ok [.blank 1 setup] := by
  intro setup text
  have hcheck : setup.check = .ok () := by decide +kernel
  have hfilled : paginate text setup (.monospace 3)
      = .ok (stackAll setup
          (List.replicate 14 [] ++ [["a b", "c d", "e f", "g h", "i"], [], []])) :=
    paginate_eq_ok_iff.2 ⟨hcheck, _, by decide +kernel, rfl⟩
  have hblank : paginate " \t\r\n\r" setup (.monospace 3) = .ok (stackAll setup [[], [], []]) :=
    paginate_eq_ok_iff.2 ⟨hcheck, _, by decide +kernel, rfl⟩
  obtain ⟨-, hpages, hlines, -, -⟩ := paginate_structures_pages hfilled
  obtain ⟨-, -, -, hsingle, hblanks⟩ := paginate_structures_pages hblank
  refine ⟨⟨_, hfilled, by decide +kernel, hpages, hlines (by decide +kernel)⟩, ?_⟩
  rw [hblank, hsingle (hblanks.2 (by simp [IsBlank, IsSpace, IsLineEnd]))]

end Folio
