import Mathlib.Tactic
import Folio.Proofs.Layout.LineWords
import Folio.Proofs.Layout.Placement

/-!
A text that goes on does not move what is laid out already.

* `GoesOn`: a fragment that is kept, or to which words are added after a single space.
* `wrapWords_append`: more words change none of the fragments but the last one, which goes on.
* `exists_place_append`: more steps change none of the lines placed before them.
-/

namespace Folio

/-! ### Fragments that go on -/

/-- The fragment `v` is `u`, or it goes on behind `u` after a single space. -/
def GoesOn (u v : String) : Prop :=
  v = u ∨ ∃ more : String, v = u ++ " " ++ more ∧ more ≠ "" ∧ more.toList.head? ≠ some ' '

namespace GoesOn

lemma refl (u : String) : GoesOn u u := .inl rfl

lemma word {w : String} (hne : w ≠ "") (hspace : ' ' ∉ w.toList) (u : String) :
    GoesOn u (u ++ " " ++ w) :=
  .inr ⟨w, rfl, hne, fun hhead => hspace (List.mem_of_mem_head? hhead)⟩

lemma trans {u v w : String} (huv : GoesOn u v) (hvw : GoesOn v w) : GoesOn u w := by
  rcases huv with rfl | ⟨more, rfl, hne, hhead⟩
  · exact hvw
  · rcases hvw with rfl | ⟨further, rfl, -, -⟩
    · exact .inr ⟨more, rfl, hne, hhead⟩
    · refine .inr ⟨more ++ " " ++ further, by simp only [String.append_assoc], by simp, ?_⟩
      have hchars : more.toList ≠ [] := by simpa using hne
      rwa [String.toList_append, String.toList_append, List.append_assoc,
        List.head?_append_of_ne_nil _ hchars]

end GoesOn

section Fragments

variable {width : String → Except Error Points} {limit : Points}

/-- Filling with more words goes on from the last fragment. -/
lemma fill_append {fragment : String} {ws vs fragments : List String}
    (h : fill width limit fragment (ws ++ vs) = .ok fragments) :
    ∃ complete last later, fill width limit fragment ws = .ok (complete ++ [last]) ∧
      fill width limit last vs = .ok later ∧ fragments = complete ++ later := by
  induction ws generalizing fragment fragments with
  | nil => exact ⟨[], fragment, fragments, rfl, h, rfl⟩
  | cons word ws ih =>
      obtain ⟨w, hw, ⟨hfits, hjoined⟩ | ⟨hfits, rest, hrest, rfl⟩⟩ := fill_cons_eq_ok_iff.1 h
      · obtain ⟨complete, last, later, hcomplete, hlater, rfl⟩ := ih hjoined
        exact ⟨complete, last, later, fill_cons_eq_ok_iff.2 ⟨w, hw, .inl ⟨hfits, hcomplete⟩⟩,
          hlater, rfl⟩
      · obtain ⟨complete, last, later, hcomplete, hlater, rfl⟩ := ih hrest
        exact ⟨fragment :: complete, last, later,
          fill_cons_eq_ok_iff.2 ⟨w, hw, .inr ⟨hfits, _, hcomplete, rfl⟩⟩, hlater, rfl⟩

/-- The first of the fragments that are filled from an open one goes on from it. -/
lemma exists_goesOn_of_fill {fragment : String} {vs fragments : List String}
    (hvs : ∀ v ∈ vs, v ≠ "" ∧ ' ' ∉ v.toList)
    (h : fill width limit fragment vs = .ok fragments) :
    ∃ first rest, fragments = first :: rest ∧ GoesOn fragment first := by
  induction vs generalizing fragment fragments with
  | nil => exact ⟨fragment, [], (Except.ok.inj h).symm, .refl fragment⟩
  | cons word vs ih =>
      obtain ⟨⟨hne, hspace⟩, hvs⟩ := List.forall_mem_cons.1 hvs
      obtain ⟨w, -, ⟨-, hjoined⟩ | ⟨-, later, -, rfl⟩⟩ := fill_cons_eq_ok_iff.1 h
      · obtain ⟨first, rest, hfragments, hfirst⟩ := ih hvs hjoined
        exact ⟨first, rest, hfragments, (GoesOn.word hne hspace fragment).trans hfirst⟩
      · exact ⟨fragment, later, rfl, .refl fragment⟩

/-- The fragments of a line, and those of the line with further words: all but the last stay, and
the last goes on. -/
inductive Continues : List String → List String → Prop
  | nil (fragments : List String) : Continues [] fragments
  | goesOn {complete rest : List String} {last first : String} (h : GoesOn last first) :
      Continues (complete ++ [last]) (complete ++ first :: rest)

/-- **More words on a line** leave all fragments but the last as they are. -/
lemma wrapWords_append {ws vs fragments : List String} (hvs : ∀ v ∈ vs, v ≠ "" ∧ ' ' ∉ v.toList)
    (h : wrapWords width limit (ws ++ vs) = .ok fragments) :
    ∃ before, wrapWords width limit ws = .ok before ∧ Continues before fragments := by
  cases ws with
  | nil => exact ⟨[], rfl, .nil fragments⟩
  | cons word ws =>
      obtain ⟨hword, hfill⟩ := wrapWords_cons_eq_ok_iff.1 h
      obtain ⟨complete, last, later, hcomplete, hlater, rfl⟩ := fill_append hfill
      obtain ⟨first, rest, rfl, hfirst⟩ := exists_goesOn_of_fill hvs hlater
      exact ⟨complete ++ [last], wrapWords_cons_eq_ok_iff.2 ⟨hword, hcomplete⟩, .goesOn hfirst⟩

end Fragments

/-! ### Lines in their places -/

/-- Where the next line is placed does not depend on its text, nor on what comes after it, and what
comes after it is placed from there on. -/
lemma exists_place_line (setup : PageSetup) (page row : Nat) (y : Points) (owner : Nat) :
    ∃ page' row' y', ∀ (text : String) (rest : List Step),
      place setup page row y owner (.line text :: rest)
        = ⟨page', row', owner, ⟨text, setup.start.1, y'⟩⟩ ::
            place setup page' (row' + 1) (y' - setup.leading) owner rest := by
  by_cases hy : y < setup.margin
  · by_cases hrow : row = 0
    · subst hrow
      exact ⟨page, 0, setup.start.2, fun text rest => place_line_of_blank hy text rest⟩
    · exact ⟨page + 1, 0, setup.start.2, fun text rest => place_line_of_full hy hrow text rest⟩
  · exact ⟨page, row, y, fun text rest => place_line_of_fits hy text rest⟩

/-- **More steps** are placed behind those before them, from where these leave the page. -/
lemma exists_place_append (setup : PageSetup) (page row : Nat) (y : Points) (owner : Nat)
    (before : List Step) :
    ∃ page' row' y' owner', ∀ after : List Step, place setup page row y owner (before ++ after)
      = place setup page row y owner before ++ place setup page' row' y' owner' after := by
  induction before generalizing page row y owner with
  | nil => exact ⟨page, row, y, owner, fun after => rfl⟩
  | cons step before ih =>
      cases step with
      | gap => exact ih page row _ _
      | line text =>
          obtain ⟨page₁, row₁, y₁, hline⟩ := exists_place_line setup page row y owner
          obtain ⟨page₂, row₂, y₂, owner₂, hbefore⟩ :=
            ih page₁ (row₁ + 1) (y₁ - setup.leading) owner
          refine ⟨page₂, row₂, y₂, owner₂, fun after => ?_⟩
          rw [List.cons_append, hline, hline, hbefore, List.cons_append]

/-- The lines of some pages in reading order, each with the number of its page and its row. -/
def placedRows (pages : List Page) : List (Nat × Nat × Line) := pages.flatMap Page.rows

/-- The lines `before` are found among the lines `after`, in the same places: all but the last of
them as they are, and the last one as it is or going on. -/
structure KeepsLines (before after : List (Nat × Nat × Line)) : Prop where
  length_le : before.length ≤ after.length
  init_eq : ∀ i, i + 1 < before.length → after[i]? = before[i]?
  last : ∀ i page row line, i + 1 = before.length → before[i]? = some (page, row, line) →
    ∃ text, after[i]? = some (page, row, ⟨text, line.x, line.y⟩) ∧ GoesOn line.text text

namespace KeepsLines

lemma append (before later : List (Nat × Nat × Line)) : KeepsLines before (before ++ later) where
  length_le := by simp
  init_eq i hi := List.getElem?_append_left (by omega)
  last i page row line hi hline :=
    ⟨line.text, by rw [List.getElem?_append_left (by omega), hline], .refl _⟩

/-- The last line may go on. -/
lemma concat {first : List (Nat × Nat × Line)} {page row : Nat} {x y : Points} {u v : String}
    (h : GoesOn u v) (later : List (Nat × Nat × Line)) :
    KeepsLines (first ++ [(page, row, ⟨u, x, y⟩)]) (first ++ (page, row, ⟨v, x, y⟩) :: later) where
  length_le := by simp
  init_eq i hi := by
    have hlt : i < first.length := by simpa using hi
    rw [List.getElem?_append_left hlt, List.getElem?_append_left hlt]
  last i page' row' line hi hline := by
    obtain rfl : i = first.length := by simpa using hi
    rw [List.getElem?_concat_length] at hline
    obtain ⟨rfl, rfl, rfl⟩ : page = page' ∧ row = row' ∧ ⟨u, x, y⟩ = line := by
      simpa using hline
    exact ⟨v, by simp, h⟩

end KeepsLines

/-! ### Texts that go on -/

/-- The lines that steps place, in reading order. -/
lemma placedRows_stackAll (setup : PageSetup) (wrapped : List (List String)) :
    placedRows (stackAll setup wrapped)
      = (place setup 1 0 setup.start.2 0 (steps wrapped)).map fun p => (p.page, p.row, p.line) :=
  flatMap_rows_stack setup (.blank 1 setup) setup.start.2 0 (steps wrapped)

/-- **A line that goes on**, and lines behind it, keep the lines that are placed already. -/
lemma keepsLines_of_continues (setup : PageSetup) {init rest : List (List String)}
    {before after : List String} (h : Continues before after) :
    KeepsLines (placedRows (stackAll setup (init ++ [before])))
      (placedRows (stackAll setup (init ++ after :: rest))) := by
  have hsteps : ∀ fragments later, steps (init ++ fragments :: later)
      = steps init ++ (fragments.map .line ++ .gap :: steps later) := fun fragments later => by
    rw [steps, List.flatMap_append, ← steps, ← steps, steps_cons]
  rw [placedRows_stackAll, placedRows_stackAll, hsteps, hsteps]
  cases h with
  | nil fragments =>
      obtain ⟨page, row, y, owner, hplace⟩ :=
        exists_place_append setup 1 0 setup.start.2 0 (steps init)
      have hgap : place setup page row y owner ([].map .line ++ .gap :: steps []) = [] := rfl
      rw [hplace, hplace, hgap, List.append_nil, List.map_append]
      exact .append _ _
  | @goesOn complete others last first h =>
      -- the complete fragments are placed alike, and so is the one that goes on
      obtain ⟨page, row, y, owner, hplace⟩ :=
        exists_place_append setup 1 0 setup.start.2 0 (steps init ++ complete.map .line)
      obtain ⟨page', row', y', hline⟩ := exists_place_line setup page row y owner
      have hgap : place setup page' (row' + 1) (y' - setup.leading) owner (.gap :: steps []) = [] :=
        rfl
      simp only [List.map_append, List.map_cons, List.map_nil, List.append_assoc,
        List.cons_append, List.nil_append]
      rw [← List.append_assoc, ← List.append_assoc, hplace, hplace, hline, hline, hgap,
        List.map_append, List.map_append]
      exact .concat h _

lemma ne_empty_of_mem_lineWords {text w : String} {ws : List String} (hws : ws ∈ lineWords text)
    (hw : w ∈ ws) : w ≠ "" ∧ ' ' ∉ w.toList := by
  obtain ⟨line, -, rfl⟩ := List.mem_map.1 hws
  exact ⟨ne_empty_of_mem_words hw, space_notMem_of_mem_words hw⟩

/-- **A text that goes on with a blank** keeps the lines that it has so far. If the longer text can
be paginated, so can the shorter one. Its lines are found among those of the longer text, on the
same pages and in the same places: all but the last of them as they are, and the last one as it is
or going on after a single space. -/
theorem paginate_append_keepsLines {a b : String} {setup : PageSetup} {measure : Measurer}
    {after : List Page} (hb : ∀ c ∈ b.toList.head?, IsBlank c)
    (h : paginate (a ++ b) setup measure = .ok after) :
    ∃ before, paginate a setup measure = .ok before ∧
      KeepsLines (placedRows before) (placedRows after) := by
  obtain ⟨hcheck, wrapped, hwrapped, rfl⟩ := paginate_eq_ok_iff.1 h
  obtain ⟨init, last, added, rest, ha, hab, hadded⟩ := lineWords_append (a := a) hb
  have hwords : ∀ w ∈ added, w ≠ "" ∧ ' ' ∉ w.toList := by
    have hmem : added ∈ lineWords b := by
      rcases hadded with hadded | hadded
      · simp [hadded]
      · simp [hadded]
    exact fun w => ne_empty_of_mem_lineWords hmem
  rw [map_wrap_eq, hab, List.map_append, List.map_cons, eq_comm, List.map_eq_append_iff] at hwrapped
  obtain ⟨wrappedInit, wrappedLast, rfl, hinit, hlast⟩ := hwrapped
  rw [List.map_eq_cons_iff] at hlast
  obtain ⟨fragments, wrappedRest, rfl, hfragments, -⟩ := hlast
  obtain ⟨kept, hkept, hcontinues⟩ := wrapWords_append hwords hfragments.symm
  refine ⟨stackAll setup (wrappedInit ++ [kept]), paginate_eq_ok_iff.2 ⟨hcheck, _, ?_, rfl⟩,
    keepsLines_of_continues setup hcontinues⟩
  rw [map_wrap_eq, ha, List.map_append, List.map_append, hinit]
  simp [hkept]

/-- A line that goes on with a tab and is wrapped, and an end of a line that is completed by its
line feed. -/
theorem paginate_append_keepsLines_of_small_sheet :
    let setup : PageSetup := ⟨20, 40, 5, 5, 10, 5⟩
    let measure : Measurer := .monospace 3
    (paginate ("x\na" ++ "\tb c") setup measure = .ok (stackAll setup [["x"], ["a b", "c"]]) ∧
      ∃ before, paginate "x\na" setup measure = .ok before ∧
        KeepsLines (placedRows before) (placedRows (stackAll setup [["x"], ["a b", "c"]]))) ∧
    (paginate ("a\r" ++ "\nb") setup measure = .ok (stackAll setup [["a"], ["b"]]) ∧
      ∃ before, paginate "a\r" setup measure = .ok before ∧
        KeepsLines (placedRows before) (placedRows (stackAll setup [["a"], ["b"]]))) := by
  intro setup measure
  have hcheck : setup.check = .ok () := by decide +kernel
  have htab : paginate ("x\na" ++ "\tb c") setup measure
      = .ok (stackAll setup [["x"], ["a b", "c"]]) :=
    paginate_eq_ok_iff.2 ⟨hcheck, _, by decide +kernel, rfl⟩
  have hfeed : paginate ("a\r" ++ "\nb") setup measure = .ok (stackAll setup [["a"], ["b"]]) :=
    paginate_eq_ok_iff.2 ⟨hcheck, _, by decide +kernel, rfl⟩
  exact ⟨⟨htab, paginate_append_keepsLines (by simp [IsBlank, IsSpace]) htab⟩,
    ⟨hfeed, paginate_append_keepsLines (by simp [IsBlank, IsLineEnd]) hfeed⟩⟩

end Folio
