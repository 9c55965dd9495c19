import Mathlib.Tactic
import Folio.Layout.Page

/-!
What stacking does at each step, and what follows for all pages.

* `stack_line_of_fits`, `stack_line_of_blank`, `stack_line_of_full`: the three ways in which a line
  is placed.
* `map_text_readingOrder_stackAll`: stacking places the fragments it is given, one line each.
* `forall_mem_stack`, `exists_of_mem_stack`: what adding a line keeps holds of every page.
-/

namespace Folio

/-! ### One line -/

/-- The line of a text at the start of a page. -/
def PageSetup.firstLine (setup : PageSetup) (text : String) : Line :=
  ⟨text, setup.start.1, setup.start.2⟩

/-- The page with the given number that starts with the given text. -/
def PageSetup.newPage (setup : PageSetup) (number : Nat) (text : String) : Page :=
  (Page.blank number setup).addLine (setup.firstLine text)

@[simp] lemma Page.lines_blank (number : Nat) (setup : PageSetup) :
    (Page.blank number setup).lines = [] := rfl

@[simp] lemma Page.lines_addLine (page : Page) (line : Line) :
    (page.addLine line).lines = page.lines ++ [line] := rfl

lemma Page.forall_mem_addLine {P : Line → Prop} {page : Page} {line : Line}
    (hlines : ∀ l ∈ page.lines, P l) (hline : P line) : ∀ l ∈ (page.addLine line).lines, P l :=
  List.forall_mem_append.2 ⟨hlines, List.forall_mem_singleton.2 hline⟩

/-- Lines in order stay in order if every one of them stands so to the line added. -/
lemma Page.pairwise_addLine {R : Line → Line → Prop} {page : Page} {line : Line}
    (hlines : page.lines.Pairwise R) (hline : ∀ l ∈ page.lines, R l line) :
    (page.addLine line).lines.Pairwise R :=
  List.pairwise_append.2 ⟨hlines, List.pairwise_singleton R line,
    fun l hl => List.forall_mem_singleton.2 (hline l hl)⟩

@[simp] lemma Page.number_addLine (page : Page) (line : Line) :
    (page.addLine line).number = page.number := rfl

@[simp] lemma PageSetup.lines_newPage (setup : PageSetup) (number : Nat) (text : String) :
    (setup.newPage number text).lines = [setup.firstLine text] := rfl

@[simp] lemma PageSetup.number_newPage (setup : PageSetup) (number : Nat) (text : String) :
    (setup.newPage number text).number = number := rfl

section

variable {setup : PageSetup} {page : Page} {y : Points}

lemma stack_line_of_fits (hy : ¬ y < setup.margin) (text : String) (rest : List Step) :
    stack setup page y (.line text :: rest)
      = stack setup (page.addLine ⟨text, setup.start.1, y⟩) (y - setup.leading) rest := by
  rw [stack, if_neg hy]

/-- A line below the bottom margin goes back to the start of an open page without lines. -/
lemma stack_line_of_blank (hy : y < setup.margin) (hpage : page.lines = []) (text : String)
    (rest : List Step) :
    stack setup page y (.line text :: rest)
      = stack setup (page.addLine (setup.firstLine text)) (setup.start.2 - setup.leading) rest := by
  rw [stack, if_pos hy, Page.isEmpty, hpage]
  rfl

/-- A line below the bottom margin completes an open page with lines, and starts the next one. -/
lemma stack_line_of_full (hy : y < setup.margin) (hpage : page.lines ≠ []) (text : String)
    (rest : List Step) :
    stack setup page y (.line text :: rest)
      = page :: stack setup (setup.newPage (page.number + 1) text)
          (setup.start.2 - setup.leading) rest := by
  have hfull : page.isEmpty = false := by simpa [Page.isEmpty] using hpage
  rw [stack, if_pos hy, hfull]
  rfl

end

/-! ### Reading order -/

/-- The lines of all pages, in the order in which they are read. -/
def readingOrder (pages : List Page) : List Line := pages.flatMap Page.lines

@[simp] lemma readingOrder_cons (page : Page) (pages : List Page) :
    readingOrder (page :: pages) = page.lines ++ readingOrder pages := rfl

/-- The text that a step places. -/
def Step.text? : Step → Option String
  | line text => some text
  | gap => none

/-- Stacking places every line of the steps once, in order, after those of the open page. -/
lemma map_text_readingOrder_stack (setup : PageSetup) (page : Page) (y : Points)
    (rest : List Step) :
    (readingOrder (stack setup page y rest)).map Line.text
      = page.lines.map Line.text ++ rest.filterMap Step.text? := by
  induction rest generalizing page y with
  | nil => simp [stack, readingOrder]
  | cons step rest ih =>
      cases step with
      | gap => simp [stack, ih, List.filterMap_cons, Step.text?]
      | line text =>
          by_cases hy : y < setup.margin
          · by_cases hpage : page.lines = []
            · rw [stack_line_of_blank hy hpage, ih]
              simp [PageSetup.firstLine, Step.text?]
            · rw [stack_line_of_full hy hpage, readingOrder_cons, List.map_append, ih]
              simp [PageSetup.firstLine, Step.text?]
          · rw [stack_line_of_fits hy, ih]
            simp [Step.text?]

lemma steps_cons (fragments : List String) (wrapped : List (List String)) :
    steps (fragments :: wrapped) = fragments.map .line ++ .gap :: steps wrapped := by
  simp [steps]

lemma filterMap_text_steps (wrapped : List (List String)) :
    (steps wrapped).filterMap Step.text? = wrapped.flatten := by
  have hlines : ∀ fragments : List String,
      (fragments.map Step.line).filterMap Step.text? = fragments := fun fragments => by
    rw [List.filterMap_map]
    exact List.filterMap_some
  induction wrapped with
  | nil => rfl
  | cons fragments wrapped ih =>
      rw [steps_cons, List.filterMap_append, hlines, List.flatten_cons, ← ih]
      rfl

/-- The pages of wrapped logical lines hold their fragments in order. -/
lemma map_text_readingOrder_stackAll (setup : PageSetup) (wrapped : List (List String)) :
    (readingOrder (stackAll setup wrapped)).map Line.text = wrapped.flatten := by
  rw [stackAll, map_text_readingOrder_stack, filterMap_text_steps, Page.lines_blank]
  rfl

/-! ### All pages -/

/-- What holds of the open page and of every page that starts with a line, and is kept by every
further line, holds of all pages. -/
lemma forall_mem_stack {setup : PageSetup} {P : Page → Prop}
    (hnew : ∀ number text, P (setup.newPage number text))
    (hadd : ∀ page text y, P page → P (page.addLine ⟨text, setup.start.1, y⟩))
    {page : Page} (hpage : P page) (y : Points) (rest : List Step) :
    ∀ q ∈ stack setup page y rest, P q := by
  induction rest generalizing page y with
  | nil => simpa [stack] using hpage
  | cons step rest ih =>
      cases step with
      | gap => exact ih hpage _
      | line text =>
          by_cases hy : y < setup.margin
          · by_cases hempty : page.lines = []
            · rw [stack_line_of_blank hy hempty]
              exact ih (hadd page text _ hpage) _
            · rw [stack_line_of_full hy hempty]
              intro q hq
              rcases List.mem_cons.1 hq with rfl | hq
              · exact hpage
              · exact ih (hnew _ text) _ q hq
          · rw [stack_line_of_fits hy]
            exact ih (hadd page text y hpage) _

/-- **An invariant of stacking** is a relation between the open page and the baseline. If it holds
of every blank page at the start, and is kept by a gap, by a line that is not below the bottom
margin and by going back to the start of a page without lines, then every page is in it with some
baseline. -/
lemma exists_of_mem_stack {setup : PageSetup} {I : Page → Points → Prop}
    (hroom : ¬ setup.start.2 < setup.margin)
    (hblank : ∀ number, I (.blank number setup) setup.start.2)
    (hgap : ∀ {page y}, I page y → I page (y - setup.gap))
    (hline : ∀ {page y} (text : String), I page y → ¬ y < setup.margin →
      I (page.addLine ⟨text, setup.start.1, y⟩) (y - setup.leading))
    (hback : ∀ {page y}, I page y → page.lines = [] → I page setup.start.2)
    {page : Page} {y : Points} (h : I page y) (rest : List Step) :
    ∀ q ∈ stack setup page y rest, ∃ z, I q z := by
  induction rest generalizing page y with
  | nil =>
      intro q hq
      rw [stack, List.mem_singleton] at hq
      exact ⟨y, hq ▸ h⟩
  | cons step rest ih =>
      cases step with
      | gap => exact ih (hgap h)
      | line text =>
          by_cases hy : y < setup.margin
          · by_cases hempty : page.lines = []
            · rw [stack_line_of_blank hy hempty]
              exact ih (hline text (hback h hempty) hroom)
            · rw [stack_line_of_full hy hempty]
              exact List.forall_mem_cons.2
                ⟨⟨y, h⟩, ih (hline text (hblank (page.number + 1)) hroom)⟩
          · rw [stack_line_of_fits hy]
            exact ih (hline text h hy)

lemma stack_ne_nil (setup : PageSetup) (page : Page) (y : Points) (rest : List Step) :
    stack setup page y rest ≠ [] := by
  induction rest generalizing page y with
  | nil => simp [stack]
  | cons step rest ih =>
      cases step with
      | gap => exact ih _ _
      | line text =>
          rw [stack]
          split_ifs
          · exact ih _ _
          · exact List.cons_ne_nil _ _
          · exact ih _ _

/-- Gaps below the last line leave no trace, however far they move the baseline. -/
lemma stack_append_gaps (setup : PageSetup) (page : Page) (y : Points) (rest : List Step)
    {gaps : List Step} (h : ∀ step ∈ gaps, step = .gap) :
    stack setup page y (rest ++ gaps) = stack setup page y rest := by
  induction rest generalizing page y with
  | nil =>
      induction gaps generalizing y with
      | nil => rfl
      | cons step gaps ih =>
          obtain ⟨rfl, hgaps⟩ := List.forall_mem_cons.1 h
          exact ih hgaps _
  | cons step rest ih =>
      cases step with
      | gap => exact ih _ _
      | line text => simp only [List.cons_append, stack, ih]

/-- Pages are numbered one after the other, from the number of the open page on. -/
lemma map_number_stack (setup : PageSetup) (page : Page) (y : Points) (rest : List Step) :
    (stack setup page y rest).map Page.number
      = List.range' page.number (stack setup page y rest).length := by
  induction rest generalizing page y with
  | nil => simp [stack]
  | cons step rest ih =>
      cases step with
      | gap => exact ih page _
      | line text =>
          by_cases hy : y < setup.margin
          · by_cases hempty : page.lines = []
            · rw [stack_line_of_blank hy hempty]
              exact ih _ _
            · rw [stack_line_of_full hy hempty, List.map_cons, ih, List.length_cons,
                List.range'_succ]
              rfl
          · rw [stack_line_of_fits hy]
            exact ih _ _

end Folio
