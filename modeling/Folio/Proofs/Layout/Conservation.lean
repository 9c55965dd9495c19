import Mathlib.Tactic
import Folio.Proofs.Layout.Fragments
import Folio.Proofs.Layout.Memory
import Folio.Proofs.Layout.Stacking

/-!
Pagination keeps every fragment: the texts of the lines in reading order are the fragments of the
logical lines, and a logical line that cannot be wrapped makes the pagination fail as it does
(`paginate_conserves_fragments`).
-/

namespace Folio

variable {text : String} {setup : PageSetup} {measure : Measurer}

/-- A pagination succeeds if its setup is accepted and every logical line can be wrapped, and then
it stacks their fragments. -/
lemma paginate_eq_ok_iff {pages : List Page} :
    paginate text setup measure = .ok pages ↔ setup.check = .ok () ∧
      ∃ wrapped : List (List String),
        (logicalLines (normalise text)).map (wrap measure.width setup.contentBox.width)
          = wrapped.map .ok ∧ pages = stackAll setup wrapped := by
  rw [paginate_eq]
  cases hcheck : setup.check with
  | error fault => simp [Except.mapError, bind, Except.bind]
  | ok _ =>
      cases hwrapped : wrapLines measure.width setup.contentBox.width text with
      | error e =>
          have hnone : ∀ wrapped : List (List String), (logicalLines (normalise text)).map
              (wrap measure.width setup.contentBox.width) ≠ wrapped.map .ok := by
            intro wrapped h
            rw [wrapLines, mapM_eq_ok_iff.2 h] at hwrapped
            simp at hwrapped
          simp [Except.mapError, bind, Except.bind, hnone]
      | ok wrapped =>
          have hmap := mapM_eq_ok_iff.1 hwrapped
          have hinj : ∀ other : List (List String), wrapped.map Except.ok
              = other.map (Except.ok (ε := Error)) ↔ wrapped = other := fun other =>
            List.map_inj_right fun _ _ h => Except.ok.inj h
          simp [Except.mapError, bind, Except.bind, pure, Except.pure, hmap, hinj, eq_comm]

/-- If a logical line cannot be wrapped, the pagination fails as the first such line does. -/
lemma paginate_eq_error {before after : List String} {line : String} {e : Error}
    (hcheck : setup.check = .ok ())
    (hlines : logicalLines (normalise text) = before ++ line :: after)
    (hbefore : ∀ b ∈ before, ∃ fragments,
      wrap measure.width setup.contentBox.width b = .ok fragments)
    (hline : wrap measure.width setup.contentBox.width line = .error e) :
    paginate text setup measure = .error e := by
  rw [paginate_eq, hcheck, wrapLines, hlines, mapM_eq_error_of_first hbefore hline]
  rfl

/-- Lines that are wrapped one by one: their fragments hold their words. -/
lemma flatMap_splitWords_flatten {width : String → Except Error Points} {limit : Points}
    {lines : List String} {wrapped : List (List String)}
    (h : lines.map (wrap width limit) = wrapped.map .ok) :
    wrapped.flatten.flatMap splitWords = lines.flatMap words := by
  induction lines generalizing wrapped with
  | nil =>
      rw [List.map_nil, eq_comm, List.map_eq_nil_iff] at h
      rw [h]
      rfl
  | cons line lines ih =>
      cases wrapped with
      | nil => simp at h
      | cons fragments wrapped =>
          obtain ⟨hline, hlines⟩ := List.cons.inj h
          rw [List.flatten_cons, List.flatMap_append, List.flatMap_cons,
            flatMap_splitWords_of_wrap hline, ih hlines]

lemma ne_empty_of_mem_flatten {width : String → Except Error Points} {limit : Points}
    {lines : List String} {wrapped : List (List String)}
    (h : lines.map (wrap width limit) = wrapped.map .ok) {fragment : String}
    (hf : fragment ∈ wrapped.flatten) : fragment ≠ "" := by
  obtain ⟨fragments, hfragments, hmem⟩ := List.mem_flatten.1 hf
  have hok : Except.ok fragments ∈ lines.map (wrap width limit) :=
    h ▸ List.mem_map_of_mem hfragments
  obtain ⟨line, -, hline⟩ := List.mem_map.1 hok
  exact ne_empty_of_mem_wrap hline hmem

/-- **Pagination keeps every fragment**, and it fails only where a logical line does.

If all logical lines of a text can be wrapped to the width of the content box, the lines of the
pages in reading order are the fragments of the logical lines, none of them empty, and their words
are the words of the logical lines. Otherwise the pagination fails as the first logical line that
cannot be wrapped. -/
theorem paginate_conserves_fragments (text : String) {setup : PageSetup} (measure : Measurer)
    (hcheck : setup.check = .ok ()) :
    let lines := logicalLines (normalise text)
    let wrapped : String → Except Error (List String) :=
      wrap measure.width setup.contentBox.width
    ((∀ line ∈ lines, ∃ fragments, wrapped line = .ok fragments) →
      ∃ (fragments : List (List String)) (pages : List Page),
        lines.map wrapped = fragments.map .ok ∧
        paginate text setup measure = .ok pages ∧
        (readingOrder pages).map Line.text = fragments.flatten ∧
        (∀ fragment ∈ fragments.flatten, fragment ≠ "") ∧
        (readingOrder pages).flatMap Line.words = lines.flatMap words ∧
        ∀ word ∈ (readingOrder pages).flatMap Line.words, word ≠ "") ∧
    ((∃ line ∈ lines, ∃ e, wrapped line = .error e) →
      ∃ before line after e, lines = before ++ line :: after ∧
        (∀ b ∈ before, ∃ fragments, wrapped b = .ok fragments) ∧
        wrapped line = .error e ∧ paginate text setup measure = .error e) := by
  intro lines wrapped
  constructor
  · intro hwrap
    obtain ⟨fragments, hfragments⟩ := exists_map_eq_ok hwrap
    have htexts := map_text_readingOrder_stackAll setup fragments
    have hwords : (readingOrder (stackAll setup fragments)).flatMap Line.words
        = lines.flatMap words := by
      rw [← flatMap_splitWords_flatten hfragments, ← htexts, List.flatMap_map]
      rfl
    refine ⟨fragments, stackAll setup fragments, hfragments,
      paginate_eq_ok_iff.2 ⟨hcheck, fragments, hfragments, rfl⟩, htexts,
      fun fragment hf => ne_empty_of_mem_flatten hfragments hf, hwords, fun word hword => ?_⟩
    rw [hwords] at hword
    obtain ⟨line, -, hword⟩ := List.mem_flatMap.1 hword
    exact ne_empty_of_mem_words hword
  · intro hfail
    obtain ⟨before, line, after, e, hlines, hbefore, hline⟩ := exists_first_error hfail
    exact ⟨before, line, after, e, hlines, hbefore, hline,
      paginate_eq_error hcheck hlines hbefore hline⟩

/-- On a sheet of 20 by 40 points, a text of three logical lines keeps its words; with a measurer
that refuses the letter `q` it fails at the first word that has one. -/
theorem paginate_conserves_fragments_of_small_sheet :
    let setup : PageSetup := ⟨20, 40, 5, 5, 10, 5⟩
    let measure : Measurer := .refusing "q" "no glyph" (.monospace 3)
    setup.check = .ok () ∧
    (∃ (fragments : List (List String)) (pages : List Page),
      (logicalLines (normalise "a b c\n\nd")).map (wrap measure.width setup.contentBox.width)
        = fragments.map .ok ∧
      paginate "a b c\n\nd" setup measure = .ok pages ∧
      (readingOrder pages).map Line.text = fragments.flatten ∧
      (∀ fragment ∈ fragments.flatten, fragment ≠ "") ∧
      (readingOrder pages).flatMap Line.words
        = (logicalLines (normalise "a b c\n\nd")).flatMap words ∧
      ∀ word ∈ (readingOrder pages).flatMap Line.words, word ≠ "") ∧
    ∃ before line after e, logicalLines (normalise "a\nb q\nq") = before ++ line :: after ∧
      (∀ b ∈ before, ∃ fragments, wrap (m := Except Error) measure.width setup.contentBox.width b
        = .ok fragments) ∧
      wrap measure.width setup.contentBox.width line = .error e ∧
      paginate "a\nb q\nq" setup measure = .error e := by
  intro setup measure
  have hcheck : setup.check = .ok () := by decide +kernel
  have hfine : ∀ line ∈ logicalLines (normalise "a b c\n\nd"), ∃ fragments,
      wrap measure.width setup.contentBox.width line = (.ok fragments : Except Error _) := by
    have hlines : logicalLines (normalise "a b c\n\nd") = ["a b c", "", "d"] := by
      decide +kernel
    rw [hlines]
    intro line hline
    fin_cases hline
    · exact ⟨["a b", "c"], by decide +kernel⟩
    · exact ⟨[], by decide +kernel⟩
    · exact ⟨["d"], by decide +kernel⟩
  have hfault : ∃ line ∈ logicalLines (normalise "a\nb q\nq"), ∃ e,
      wrap measure.width setup.contentBox.width line = (.error e : Except Error (List String)) :=
    ⟨"b q", by decide +kernel, .unmeasured "b q" ⟨"no glyph"⟩, by decide +kernel⟩
  exact ⟨hcheck, (paginate_conserves_fragments "a b c\n\nd" measure hcheck).1 hfine,
    (paginate_conserves_fragments "a\nb q\nq" measure hcheck).2 hfault⟩

end Folio
