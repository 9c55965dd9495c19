import Mathlib.Tactic
import Folio.Proofs.Layout.Conservation

/-!
Where pagination places its lines.

* `Placed`: a line with the number of its page, its row there and the index of its logical line.
  `place` computes these beside `stack`.
* `isChain_cons_place`: the baseline is at all times the one that the last placed line leaves,
  moved down by the gaps since.
* `WellPlaced`: every line follows the one before it, and the first one the blank lines before it.
-/

namespace Folio

/-! ### Placed lines -/

/-- A line of some pages in reading order. -/
structure Placed where
  /-- The number of its page. -/
  page : Nat
  /-- Number of lines above it on that page. -/
  row : Nat
  /-- The index of the logical line that it is a fragment of. -/
  owner : Nat
  line : Line

/-- The lines of a page, each with the number of the page and its row. -/
def Page.rows (page : Page) : List (Nat × Nat × Line) :=
  page.lines.mapIdx fun row line => (page.number, row, line)

/-- The index of the logical line of every fragment, where the first logical line has the index
`first`. -/
def owners (first : Nat) : List (List String) → List Nat
  | [] => []
  | fragments :: wrapped => fragments.map (fun _ => first) ++ owners (first + 1) wrapped

/-- The lines of some pages in reading order, if they are the fragments of the given logical
lines. -/
def placedLines (pages : List Page) (wrapped : List (List String)) : List Placed :=
  List.zipWith (fun place owner => ⟨place.1, place.2.1, owner, place.2.2⟩)
    (pages.flatMap Page.rows) (owners 0 wrapped)

/-- The baseline below a line at height `y`, `gaps` logical lines further on. -/
def PageSetup.nextBaseline (setup : PageSetup) (gaps : Nat) (y : Points) : Points :=
  (· - setup.gap)^[gaps] (y - setup.leading)

/-- Below the last line of the same logical line there is only the leading. -/
lemma PageSetup.nextBaseline_sub_self (setup : PageSetup) (owner : Nat) (y : Points) :
    y - setup.leading = setup.nextBaseline (owner - owner) y := by
  rw [Nat.sub_self]
  rfl

lemma PageSetup.nextBaseline_succ (setup : PageSetup) (gaps : Nat) (y : Points) :
    setup.nextBaseline (gaps + 1) y = setup.nextBaseline gaps y - setup.gap :=
  Function.iterate_succ_apply' _ _ _

/-- The line `v` comes right after `u`: below it on the same page, unless that is below the bottom
margin; then at the start of the next page. -/
def Follows (setup : PageSetup) (u v : Placed) : Prop :=
  u.owner ≤ v.owner ∧
  (¬ setup.nextBaseline (v.owner - u.owner) u.line.y < setup.margin →
    v.page = u.page ∧ v.row = u.row + 1 ∧
      v.line.y = setup.nextBaseline (v.owner - u.owner) u.line.y) ∧
  (setup.nextBaseline (v.owner - u.owner) u.line.y < setup.margin →
    v.page = u.page + 1 ∧ v.row = 0 ∧ v.line.y = setup.start.2)

/-- The pages place the fragments of the given logical lines one after the other. -/
structure WellPlaced (setup : PageSetup) (lines : List String) (wrapped : List (List String))
    (pages : List Page) : Prop where
  /-- The placed lines are all lines of the pages. -/
  lines_eq : (placedLines pages wrapped).map Placed.line = readingOrder pages
  texts_eq : (readingOrder pages).map Line.text = wrapped.flatten
  /-- Each of them belongs to the logical line of its fragment. -/
  owners_eq : (placedLines pages wrapped).map Placed.owner = owners 0 wrapped
  follows : (placedLines pages wrapped).IsChain (Follows setup)
  /-- The first line is on the first page, and no logical line before its own has a word. It stands
  below a gap for each of them, or at the start of the page if that is below the margin. -/
  first : ∀ v ∈ (placedLines pages wrapped).head?, v.page = 1 ∧ v.row = 0 ∧
    (∀ line ∈ lines.take v.owner, words line = []) ∧
    v.line.y = if (· - setup.gap)^[v.owner] setup.start.2 < setup.margin then setup.start.2
      else (· - setup.gap)^[v.owner] setup.start.2
  left : ∀ line ∈ readingOrder pages, line.x = setup.start.1
  numbers : pages.map Page.number = List.range' 1 pages.length
  /-- Every page but the first has a line, and its first line stands at the start. -/
  starts : ∀ page ∈ pages, page.number ≠ 1 →
    ∃ line, page.lines.head? = some line ∧ line.y = setup.start.2

/-! ### Placing beside stacking -/

/-- The placed lines of some steps. The open page has the number `page` and `row` lines, the
baseline is `y`, and the steps start in the logical line with the index `owner`. -/
def place (setup : PageSetup) (page row : Nat) (y : Points) (owner : Nat) :
    List Step → List Placed
  | [] => []
  | .gap :: rest => place setup page row (y - setup.gap) (owner + 1) rest
  | .line text :: rest =>
    if y < setup.margin then
      let next := if row = 0 then page else page + 1
      ⟨next, 0, owner, ⟨text, setup.start.1, setup.start.2⟩⟩ ::
        place setup next 1 (setup.start.2 - setup.leading) owner rest
    else
      ⟨page, row, owner, ⟨text, setup.start.1, y⟩⟩ ::
        place setup page (row + 1) (y - setup.leading) owner rest

section

variable {setup : PageSetup} {page row owner : Nat} {y : Points}

lemma place_line_of_fits (hy : ¬ y < setup.margin) (text : String) (rest : List Step) :
    place setup page row y owner (.line text :: rest)
      = ⟨page, row, owner, ⟨text, setup.start.1, y⟩⟩ ::
          place setup page (row + 1) (y - setup.leading) owner rest := by
  rw [place, if_neg hy]

lemma place_line_of_blank (hy : y < setup.margin) (text : String) (rest : List Step) :
    place setup page 0 y owner (.line text :: rest)
      = ⟨page, 0, owner, setup.firstLine text⟩ ::
          place setup page 1 (setup.start.2 - setup.leading) owner rest := by
  rw [place, if_pos hy]
  rfl

lemma place_line_of_full (hy : y < setup.margin) (hrow : row ≠ 0) (text : String)
    (rest : List Step) :
    place setup page row y owner (.line text :: rest)
      = ⟨page + 1, 0, owner, setup.firstLine text⟩ ::
          place setup (page + 1) 1 (setup.start.2 - setup.leading) owner rest := by
  rw [place, if_pos hy, if_neg hrow]
  rfl

end

@[simp] lemma Page.rows_addLine (page : Page) (line : Line) :
    (page.addLine line).rows = page.rows ++ [(page.number, page.lines.length, line)] := by
  simp [Page.rows, Page.addLine]

@[simp] lemma Page.rows_blank (number : Nat) (setup : PageSetup) :
    (Page.blank number setup).rows = [] := rfl

@[simp] lemma Page.map_line_rows (page : Page) :
    page.rows.map (fun place => place.2.2) = page.lines :=
  List.ext_getElem? fun i => by simp [Page.rows, Function.comp_def]

@[simp] lemma PageSetup.rows_newPage (setup : PageSetup) (number : Nat) (text : String) :
    (setup.newPage number text).rows = [(number, 0, setup.firstLine text)] := rfl

/-- Stacking places every line as `place` does. -/
lemma flatMap_rows_stack (setup : PageSetup) (page : Page) (y : Points) (owner : Nat)
    (rest : List Step) :
    (stack setup page y rest).flatMap Page.rows
      = page.rows ++ (place setup page.number page.lines.length y owner rest).map
          fun p => (p.page, p.row, p.line) := by
  induction rest generalizing page y owner with
  | nil => simp [stack, place]
  | cons step rest ih =>
      cases step with
      | gap => exact ih page (y - setup.gap) (owner + 1)
      | line text =>
          by_cases hy : y < setup.margin
          · by_cases hempty : page.lines = []
            · have hrow : page.lines.length = 0 := by rw [hempty]; rfl
              rw [stack_line_of_blank hy hempty, hrow, place_line_of_blank hy, ih _ _ owner]
              simp [hrow]
            · have hrow : page.lines.length ≠ 0 := by simpa using hempty
              rw [stack_line_of_full hy hempty, place_line_of_full hy hrow, List.flatMap_cons,
                ih _ _ owner]
              simp
          · rw [stack_line_of_fits hy, place_line_of_fits hy, ih _ _ owner]
            simp

lemma map_owner_place (setup : PageSetup) (page row : Nat) (y : Points) (owner : Nat)
    (wrapped : List (List String)) :
    (place setup page row y owner (steps wrapped)).map Placed.owner = owners owner wrapped := by
  induction wrapped generalizing page row y owner with
  | nil => rfl
  | cons fragments wrapped ih =>
      rw [steps_cons, owners]
      induction fragments generalizing page row y with
      | nil => exact ih _ _ _ _
      | cons text fragments ihf =>
          rw [List.map_cons, List.cons_append]
          by_cases hy : y < setup.margin
          · by_cases hrow : row = 0
            · rw [hrow, place_line_of_blank hy, List.map_cons, ihf]
              rfl
            · rw [place_line_of_full hy hrow, List.map_cons, ihf]
              rfl
          · rw [place_line_of_fits hy, List.map_cons, ihf]
            rfl

/-- The placed lines of wrapped logical lines are those that `place` computes. -/
lemma placedLines_stackAll (setup : PageSetup) (wrapped : List (List String)) :
    placedLines (stackAll setup wrapped) wrapped
      = place setup 1 0 setup.start.2 0 (steps wrapped) := by
  have hrows : (stackAll setup wrapped).flatMap Page.rows
      = (place setup 1 0 setup.start.2 0 (steps wrapped)).map fun p => (p.page, p.row, p.line) :=
    flatMap_rows_stack setup (.blank 1 setup) setup.start.2 0 (steps wrapped)
  rw [placedLines, hrows, ← map_owner_place setup 1 0 setup.start.2 0, List.zipWith_map,
    List.zipWith_self]
  exact List.map_id _

/-- The placed lines are the lines of the pages, in reading order. -/
lemma map_line_placedLines_stackAll (setup : PageSetup) (wrapped : List (List String)) :
    (placedLines (stackAll setup wrapped) wrapped).map Placed.line
      = readingOrder (stackAll setup wrapped) := by
  have hrows := flatMap_rows_stack setup (.blank 1 setup) setup.start.2 0 (steps wrapped)
  calc (placedLines (stackAll setup wrapped) wrapped).map Placed.line
      = ((stackAll setup wrapped).flatMap Page.rows).map fun place => place.2.2 := by
        rw [placedLines_stackAll, stackAll, hrows, Page.rows_blank, List.nil_append, List.map_map]
        rfl
    _ = readingOrder (stackAll setup wrapped) := by
        rw [List.map_flatMap, readingOrder]
        exact List.flatMap_congr fun page _ => page.map_line_rows

/-! ### The next line -/

/-- The lines that are placed below `u` follow each other. The baseline is at all times the one
that `u` leaves, moved down by a gap for each logical line since. -/
lemma isChain_cons_place (setup : PageSetup) (u : Placed) {row owner : Nat} {y : Points}
    (hrow : row = u.row + 1) (howner : u.owner ≤ owner)
    (hy : y = setup.nextBaseline (owner - u.owner) u.line.y) (rest : List Step) :
    (u :: place setup u.page row y owner rest).IsChain (Follows setup) := by
  induction rest generalizing u row owner y with
  | nil => exact List.isChain_singleton u
  | cons step rest ih =>
      cases step with
      | gap =>
          refine ih u hrow (Nat.le_succ_of_le howner) ?_
          rw [Nat.succ_sub howner, PageSetup.nextBaseline_succ, hy]
      | line text =>
          by_cases hmargin : y < setup.margin
          · rw [place_line_of_full hmargin (by omega)]
            refine List.isChain_cons_cons.2 ⟨⟨howner, ?_, ?_⟩, ih _ rfl (le_refl _) ?_⟩
            · exact fun h => absurd (hy ▸ hmargin) h
            · exact fun _ => ⟨rfl, rfl, rfl⟩
            · exact setup.nextBaseline_sub_self owner _
          · rw [place_line_of_fits hmargin]
            refine List.isChain_cons_cons.2 ⟨⟨howner, ?_, ?_⟩, ih _ rfl (le_refl _) ?_⟩
            · exact fun _ => ⟨rfl, hrow, hy⟩
            · exact fun h => absurd (hy ▸ h) hmargin
            · exact setup.nextBaseline_sub_self owner _

lemma isChain_cons_place_self (setup : PageSetup) (u : Placed) (rest : List Step) :
    (u :: place setup u.page (u.row + 1) (u.line.y - setup.leading) u.owner rest).IsChain
      (Follows setup) :=
  isChain_cons_place setup u rfl (le_refl _) (setup.nextBaseline_sub_self u.owner _) rest

/-- The first placed line stands at the baseline that is left by the gaps before it, or at the
start of its page if that is below the bottom margin, and the others follow it. -/
lemma isChain_place (setup : PageSetup) (page : Nat) (y : Points) (owner : Nat)
    (rest : List Step) :
    (place setup page 0 y owner rest).IsChain (Follows setup) ∧
      ∀ v ∈ (place setup page 0 y owner rest).head?, owner ≤ v.owner ∧ v.page = page ∧ v.row = 0 ∧
        v.line.y = if (· - setup.gap)^[v.owner - owner] y < setup.margin then setup.start.2
          else (· - setup.gap)^[v.owner - owner] y := by
  induction rest generalizing y owner with
  | nil => exact ⟨List.isChain_nil, by simp [place]⟩
  | cons step rest ih =>
      cases step with
      | gap =>
          obtain ⟨hchain, hhead⟩ := ih (y - setup.gap) (owner + 1)
          refine ⟨hchain, fun v hv => ?_⟩
          obtain ⟨howner, hpage, hrow, hy⟩ := hhead v hv
          have hgaps : v.owner - owner = (v.owner - (owner + 1)) + 1 := by omega
          rw [hgaps, Function.iterate_succ_apply]
          exact ⟨by omega, hpage, hrow, hy⟩
      | line text =>
          by_cases hmargin : y < setup.margin
          · rw [place_line_of_blank hmargin]
            refine ⟨isChain_cons_place_self setup ⟨page, 0, owner, _⟩ rest, fun v hv => ?_⟩
            obtain rfl := Option.some.inj hv
            refine ⟨le_refl _, rfl, rfl, ?_⟩
            rw [Nat.sub_self, Function.iterate_zero_apply, if_pos hmargin]
            rfl
          · rw [place_line_of_fits hmargin]
            refine ⟨isChain_cons_place_self setup ⟨page, 0, owner, _⟩ rest, fun v hv => ?_⟩
            obtain rfl := Option.some.inj hv
            refine ⟨le_refl _, rfl, rfl, ?_⟩
            rw [Nat.sub_self, Function.iterate_zero_apply, if_neg hmargin]

/-! ### The first line -/

/-- The logical lines before that of the first fragment have no fragment. -/
lemma eq_nil_of_mem_take_owners {wrapped : List (List String)} {first owner : Nat}
    (h : (owners first wrapped).head? = some owner) :
    ∀ fragments ∈ wrapped.take (owner - first), fragments = [] := by
  induction wrapped generalizing first with
  | nil => simp
  | cons fragments wrapped ih =>
      cases fragments with
      | nil =>
          intro other hother
          rcases Nat.eq_zero_or_pos (owner - first) with hzero | hpos
          · simp [hzero] at hother
          · obtain ⟨n, hn⟩ := Nat.exists_eq_add_of_lt hpos
            rw [show owner - first = (owner - (first + 1)) + 1 by omega, List.take_succ_cons,
              List.mem_cons] at hother
            exact hother.elim id (ih h other)
      | cons text fragments =>
          obtain rfl : first = owner := Option.some.inj h
          simp

/-- If lines are wrapped one by one, those before the owner of the first fragment have no word. -/
lemma words_eq_nil_of_mem_take {width : String → Except Error Points} {limit : Points}
    {lines : List String} {wrapped : List (List String)} {owner : Nat}
    (hwrapped : lines.map (wrap width limit) = wrapped.map .ok)
    (howner : (owners 0 wrapped).head? = some owner) {line : String}
    (hline : line ∈ lines.take owner) : words line = [] := by
  have htake : (lines.take owner).map (wrap width limit) = (wrapped.take owner).map .ok := by
    rw [List.map_take, List.map_take, hwrapped]
  have hmem : wrap width limit line ∈ (wrapped.take owner).map .ok :=
    htake ▸ List.mem_map_of_mem hline
  obtain ⟨fragments, hfragments, hok⟩ := List.mem_map.1 hmem
  exact (wrap_eq_nil_iff hok.symm).1 (eq_nil_of_mem_take_owners howner fragments hfragments)

/-- A page that does not come first starts where every page starts. -/
lemma exists_head_of_number_ne {setup : PageSetup} {wrapped : List (List String)} {page : Page}
    (hpage : page ∈ stackAll setup wrapped) (hnumber : page.number ≠ 1) :
    ∃ line, page.lines.head? = some line ∧ line.y = setup.start.2 := by
  refine forall_mem_stack (P := fun p => p.number ≠ 1 → ∃ line, p.lines.head? = some line ∧
    line.y = setup.start.2) ?_ ?_ ?_ setup.start.2 (steps wrapped) page hpage hnumber
  · exact fun number text _ => ⟨setup.firstLine text, rfl, rfl⟩
  · intro p text y hp hnumber
    obtain ⟨line, hhead, hy⟩ := hp hnumber
    exact ⟨line, by rw [Page.lines_addLine, List.head?_append, hhead]; rfl, hy⟩
  · exact fun h => absurd rfl h

lemma x_eq_of_mem_readingOrder {setup : PageSetup} {wrapped : List (List String)} {line : Line}
    (hline : line ∈ readingOrder (stackAll setup wrapped)) : line.x = setup.start.1 := by
  obtain ⟨page, hpage, hline⟩ := List.mem_flatMap.1 hline
  refine forall_mem_stack (P := fun p => ∀ l ∈ p.lines, l.x = setup.start.1) ?_ ?_ ?_
    setup.start.2 (steps wrapped) page hpage line hline
  · intro number text l hl
    rw [PageSetup.lines_newPage, List.mem_singleton] at hl
    rw [hl]
    rfl
  · intro p text y hp l hl
    rw [Page.lines_addLine, List.mem_append, List.mem_singleton] at hl
    rcases hl with hl | rfl
    · exact hp l hl
    · rfl
  · simp

/-! ### Pagination -/

/-- The pages of logical lines that are wrapped one by one place their fragments well. -/
lemma wellPlaced_stackAll {width : String → Except Error Points} {limit : Points}
    (setup : PageSetup) {lines : List String} {wrapped : List (List String)}
    (hwrapped : lines.map (wrap width limit) = wrapped.map .ok) :
    WellPlaced setup lines wrapped (stackAll setup wrapped) := by
  obtain ⟨hchain, hhead⟩ := isChain_place setup 1 setup.start.2 0 (steps wrapped)
  have howners := map_owner_place setup 1 0 setup.start.2 0 wrapped
  rw [← placedLines_stackAll] at hchain hhead howners
  refine ⟨map_line_placedLines_stackAll setup wrapped, map_text_readingOrder_stackAll setup wrapped,
    howners, hchain, fun v hv => ?_, fun line => x_eq_of_mem_readingOrder, map_number_stack _ _ _ _,
    fun page => exists_head_of_number_ne⟩
  obtain ⟨-, hpage, hrow, hy⟩ := hhead v hv
  have howner : (owners 0 wrapped).head? = some v.owner := by
    rw [← howners, List.head?_map, hv]
    rfl
  exact ⟨hpage, hrow, fun line => words_eq_nil_of_mem_take hwrapped howner, hy⟩

/-- **The place of every line.** The lines of a successful pagination, in reading order and each
with the index of its logical line, follow each other: a line goes below the one before it, by the
leading and then a gap for each logical line in between, unless that is below the bottom margin,
and then to the start of the next page. The first line goes to the first page, below a gap for each
blank line before it, or to the start of that page if that is below the bottom margin. -/
theorem paginate_places_lines {text : String} {setup : PageSetup} {measure : Measurer}
    {pages : List Page} (h : paginate text setup measure = .ok pages) :
    ∃ wrapped : List (List String),
      (logicalLines (normalise text)).map (wrap measure.width setup.contentBox.width)
        = wrapped.map .ok ∧
      WellPlaced setup (logicalLines (normalise text)) wrapped pages := by
  obtain ⟨-, wrapped, hwrapped, rfl⟩ := paginate_eq_ok_iff.1 h
  exact ⟨wrapped, hwrapped, wellPlaced_stackAll setup hwrapped⟩

/-- Blank lines that run off the first page, a line that is wrapped and a page break. -/
theorem paginate_places_lines_of_small_sheet :
    let text := "\n\n\n\n\n\na b c\n\nd"
    let setup : PageSetup := ⟨20, 40, 5, 5, 10, 5⟩
    let pages := stackAll setup [[], [], [], [], [], [], ["a b", "c"], [], ["d"]]
    paginate text setup (.monospace 3) = .ok pages ∧
    ∃ wrapped : List (List String),
      (logicalLines (normalise text)).map
          (wrap (Measurer.monospace 3).width setup.contentBox.width) = wrapped.map .ok ∧
      WellPlaced setup (logicalLines (normalise text)) wrapped pages := by
  intro text setup pages
  have hpages : paginate text setup (.monospace 3) = .ok pages :=
    paginate_eq_ok_iff.2 ⟨by decide +kernel, [[], [], [], [], [], [], ["a b", "c"], [], ["d"]],
      by decide +kernel, rfl⟩
  exact ⟨hpages, paginate_places_lines hpages⟩

end Folio
