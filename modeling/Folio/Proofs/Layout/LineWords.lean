import Mathlib.Tactic
import Folio.Proofs.Layout.Fragments

/-!
The words of every line of a text, and how they change where two texts meet.

* `SplitsReturn`: two texts meet within one end of a line, a carriage return and its line feed.
  Everywhere else texts are normalised apart (`normaliseChars_append`).
* `lineChars_append`: the last line of the first text and the first line of the second become one.
* `lineWords_append`: a text that starts with a blank only adds words to the end of the last line,
  and lines after it.
-/

namespace Folio

/-! ### Cutting lists -/

section

variable {α : Type} [DecidableEq α] {x : α}

/-- The part before the first separator goes on with what comes before it. -/
lemma splitOn_append {xs ys last first : List α} {init rest : List (List α)}
    (hxs : xs.splitOn x = init ++ [last]) (hys : ys.splitOn x = first :: rest) :
    (xs ++ ys).splitOn x = init ++ (last ++ first) :: rest := by
  induction xs generalizing init last with
  | nil =>
      cases init with
      | nil =>
          obtain rfl : [] = last := by simpa using hxs
          simpa using hys
      | cons part init => simp at hxs
  | cons a xs ih =>
      obtain ⟨init', last', hparts⟩ : ∃ init' last', xs.splitOn x = init' ++ [last'] :=
        ⟨_, _, (List.dropLast_append_getLast (List.splitOn_ne_nil x xs)).symm⟩
      rw [List.cons_append, List.splitOn_cons_eq_if_modifyHead, ih hparts]
      rw [List.splitOn_cons_eq_if_modifyHead, hparts] at hxs
      split at hxs
      · rename_i hsep
        rw [← List.cons_append, List.append_singleton_inj] at hxs
        rw [if_pos hsep, ← hxs.1, ← hxs.2, List.cons_append]
      · rename_i hsep
        rw [if_neg hsep]
        cases init' with
        | nil =>
            rw [List.nil_append, List.modifyHead_cons, ← List.nil_append [_],
              List.append_singleton_inj] at hxs
            rw [← hxs.1, ← hxs.2]
            rfl
        | cons part init' =>
            rw [List.cons_append, List.modifyHead_cons, ← List.cons_append,
              List.append_singleton_inj] at hxs
            rw [← hxs.1, ← hxs.2]
            rfl

lemma flatten_splitOn (x : α) (xs : List α) :
    (xs.splitOn x).flatten = xs.filter (· ≠ x) := by
  induction xs with
  | nil => rfl
  | cons a xs ih =>
      rw [List.splitOn_cons_eq_if_modifyHead]
      by_cases ha : a = x
      · simp [ha, ih]
      · obtain ⟨part, parts, hparts⟩ := List.exists_cons_of_ne_nil (List.splitOn_ne_nil x xs)
        rw [hparts, List.flatten_cons] at ih
        simp [ha, hparts, ih]

end

/-! ### Ends of lines -/

/-- A text whose lines all end with a line feed, and without tabs. -/
def normaliseChars (text : List Char) : List Char :=
  ((mergeReturns text).map fun c => if c = '\r' then '\n' else c).flatMap fun c =>
    if c = '\t' then tab else [c]

lemma normalise_eq (text : String) :
    normalise text = String.ofList (normaliseChars text.toList) := rfl

/-- The two texts meet between a carriage return and its line feed. -/
def SplitsReturn (a b : List Char) : Prop := a.getLast? = some '\r' ∧ b.head? = some '\n'

/-- Only a carriage return right before a line feed is dropped. -/
lemma mergeReturns_cons (c : Char) (text : List Char) :
    mergeReturns (c :: text)
      = if c = '\r' ∧ text.head? = some '\n' then mergeReturns text
        else c :: mergeReturns text := by
  by_cases h : c = '\r' ∧ text.head? = some '\n'
  · obtain ⟨rfl, hhead⟩ := h
    cases text with
    | nil => simp at hhead
    | cons d text =>
        obtain rfl : d = '\n' := Option.some.inj hhead
        rw [if_pos ⟨rfl, hhead⟩, mergeReturns, mergeReturns]
        simp
  · rw [if_neg h, mergeReturns]
    rintro rest rfl rfl
    exact h ⟨rfl, rfl⟩

lemma mergeReturns_append {a b : List Char} (h : ¬ SplitsReturn a b) :
    mergeReturns (a ++ b) = mergeReturns a ++ mergeReturns b := by
  induction a with
  | nil => rw [List.nil_append, mergeReturns, List.nil_append]
  | cons c a ih =>
      have hrest : ¬ SplitsReturn a b := fun ⟨hlast, hhead⟩ =>
        h ⟨by rw [List.getLast?_cons, hlast]; rfl, hhead⟩
      -- the end of a line that starts with `c` lies within the first text
      have hhead : c = '\r' ∧ (a ++ b).head? = some '\n' ↔ c = '\r' ∧ a.head? = some '\n' := by
        cases a with
        | nil =>
            have hc : ¬ (c = '\r' ∧ b.head? = some '\n') := fun ⟨hc, hb⟩ => h ⟨by simp [hc], hb⟩
            simpa using hc
        | cons d a => simp
      rw [List.cons_append, mergeReturns_cons, mergeReturns_cons, ih hrest]
      simp only [hhead]
      split <;> rfl

/-- **Texts are normalised apart**, unless they meet within one end of a line. -/
lemma normaliseChars_append {a b : List Char} (h : ¬ SplitsReturn a b) :
    normaliseChars (a ++ b) = normaliseChars a ++ normaliseChars b := by
  rw [normaliseChars, mergeReturns_append h, List.map_append, List.flatMap_append]
  rfl

/-- A carriage return and the line feed behind it end one line only. -/
lemma normaliseChars_append_return (a b : List Char) :
    normaliseChars (a ++ '\r' :: '\n' :: b) = normaliseChars a ++ '\n' :: normaliseChars b := by
  rw [normaliseChars_append (by simp [SplitsReturn])]
  rfl

/-! ### Lines -/

/-- The lines of a text. -/
def lineChars (text : List Char) : List (List Char) := (normaliseChars text).splitOn '\n'

lemma exists_lineChars_eq_concat (text : List Char) :
    ∃ init last, lineChars text = init ++ [last] :=
  ⟨_, _, (List.dropLast_append_getLast (List.splitOn_ne_nil '\n' (normaliseChars text))).symm⟩

lemma exists_lineChars_eq_cons (text : List Char) :
    ∃ first rest, lineChars text = first :: rest :=
  List.exists_cons_of_ne_nil (List.splitOn_ne_nil '\n' (normaliseChars text))

/-- **The lines around the place where two texts meet** become one. -/
lemma lineChars_append {a b last first : List Char} {init rest : List (List Char)}
    (h : ¬ SplitsReturn a b) (ha : lineChars a = init ++ [last])
    (hb : lineChars b = first :: rest) :
    lineChars (a ++ b) = init ++ (last ++ first) :: rest := by
  rw [lineChars, normaliseChars_append h]
  exact splitOn_append ha hb

/-! ### Words -/

/-- The words of a line. -/
def charWords (line : List Char) : List String :=
  ((line.splitOn ' ').filter (· ≠ [])).map String.ofList

@[simp] lemma charWords_nil : charWords [] = [] := rfl

/-- **At a space**, the words of a line fall into those before and those after it. -/
lemma charWords_append_space (a b : List Char) :
    charWords (a ++ ' ' :: b) = charWords a ++ charWords b := by
  rw [charWords, List.splitOn_append_cons_self, List.filter_append, List.map_append]
  rfl

@[simp] lemma charWords_cons_space (line : List Char) : charWords (' ' :: line) = charWords line :=
  charWords_append_space [] line

lemma charWords_eq_nil_iff {line : List Char} : charWords line = [] ↔ ∀ c ∈ line, c = ' ' := by
  have hparts : charWords line = [] ↔ (line.splitOn ' ').flatten = [] := by
    rw [charWords, List.map_eq_nil_iff, List.filter_eq_nil_iff, List.flatten_eq_nil_iff]
    simp
  rw [hparts, flatten_splitOn, List.filter_eq_nil_iff]
  simp

/-! ### The words of every line -/

/-- The words of every logical line of a text. -/
def lineWords (text : String) : List (List String) := (logicalLines (normalise text)).map words

lemma lineWords_eq (text : String) : lineWords text = (lineChars text.toList).map charWords := by
  rw [lineWords, logicalLines, normalise_eq, String.toList_ofList, List.map_map]
  refine List.map_congr_left fun line _ => ?_
  rw [Function.comp_apply, words, String.toList_ofList]
  rfl

/-- The logical lines of a text are wrapped word by word. -/
lemma map_wrap_eq {m : Type → Type} [Monad m] (width : String → m Points) (limit : Points)
    (text : String) :
    (logicalLines (normalise text)).map (wrap width limit)
      = (lineWords text).map (wrapWords width limit) := by
  rw [lineWords, List.map_map]
  exact List.map_congr_left fun line _ => wrap_eq_wrapWords width limit line

/-- A space or a tab. -/
def IsSpace (c : Char) : Prop := c = ' ' ∨ c = '\t'

/-- A character that ends a line. -/
def IsLineEnd (c : Char) : Prop := c = '\n' ∨ c = '\r'

/-- A character that belongs to no word. -/
def IsBlank (c : Char) : Prop := IsSpace c ∨ IsLineEnd c

/-- A text that stops with a space meets no other one within an end of a line. -/
lemma not_splitsReturn_of_isSpace {a : List Char} (ha : ∀ c ∈ a.getLast?, IsSpace c)
    (b : List Char) : ¬ SplitsReturn a b := fun ⟨hreturn, _⟩ => by
  simpa [IsSpace] using ha _ hreturn

/-- A space or a tab is normalised to a space, and maybe further ones. -/
lemma exists_normaliseChars_of_isSpace {c : Char} (hc : IsSpace c) (text : List Char) :
    ∃ rest, normaliseChars (c :: text) = ' ' :: rest := by
  have happend := normaliseChars_append
    (not_splitsReturn_of_isSpace (a := [c]) (by simpa using hc) text)
  rcases hc with rfl | rfl
  · exact ⟨_, happend⟩
  · exact ⟨_, happend⟩

/-- A character that ends a line is normalised to a line feed. -/
lemma exists_normaliseChars_of_isLineEnd {c : Char} (hc : IsLineEnd c) (text : List Char) :
    ∃ rest, normaliseChars (c :: text) = '\n' :: rest := by
  by_cases hsplit : SplitsReturn [c] text
  · obtain ⟨hlast, hhead⟩ := hsplit
    obtain rfl : c = '\r' := Option.some.inj hlast
    obtain ⟨rest, rfl⟩ := List.head?_eq_some_iff.1 hhead
    exact ⟨_, normaliseChars_append_return [] rest⟩
  · have happend := normaliseChars_append hsplit
    rcases hc with rfl | rfl
    · exact ⟨_, happend⟩
    · exact ⟨_, happend⟩

/-- A text that starts with the end of a line has an empty first line. -/
lemma first_eq_nil {b first : List Char} {rest : List (List Char)}
    (hb : ∀ c ∈ b.head?, IsLineEnd c) (hlines : lineChars b = first :: rest) : first = [] := by
  cases b with
  | nil => exact (List.cons.inj hlines).1.symm
  | cons c b =>
      obtain ⟨text, htext⟩ := exists_normaliseChars_of_isLineEnd (hb c rfl) b
      rw [lineChars, htext, List.splitOn_cons_eq_if_modifyHead] at hlines
      exact (List.cons.inj hlines).1.symm

/-- The first line of a text that starts with a blank is empty or starts with a space, so that its
words do not go on with those before it. -/
lemma charWords_append_of_blank {b first : List Char} {rest : List (List Char)}
    (hb : ∀ c ∈ b.head?, IsBlank c) (hlines : lineChars b = first :: rest) (last : List Char) :
    charWords (last ++ first) = charWords last ++ charWords first := by
  by_cases hspace : ∃ c ∈ b.head?, IsSpace c
  · obtain ⟨c, hhead, hc⟩ := hspace
    obtain ⟨b, rfl⟩ := List.head?_eq_some_iff.1 hhead
    obtain ⟨text, htext⟩ := exists_normaliseChars_of_isSpace hc b
    obtain ⟨part, parts, hparts⟩ := List.exists_cons_of_ne_nil (List.splitOn_ne_nil '\n' text)
    rw [lineChars, htext, List.splitOn_cons_eq_if_modifyHead, hparts] at hlines
    obtain rfl : ' ' :: part = first := (List.cons.inj hlines).1
    rw [charWords_append_space, charWords_cons_space]
  · obtain rfl :=
      first_eq_nil (fun c hc => (hb c hc).resolve_left fun h => hspace ⟨c, hc, h⟩) hlines
    simp

/-- **A text that starts with a blank** adds words to the last line of the text before it, and lines
behind that. It adds its own words, except that a line feed that completes the end of a line adds
nothing. -/
lemma lineWords_append {a b : String} (hb : ∀ c ∈ b.toList.head?, IsBlank c) :
    ∃ init last added rest, lineWords a = init ++ [last] ∧
      lineWords (a ++ b) = init ++ (last ++ added) :: rest ∧
      (lineWords b = added :: rest ∨ lineWords b = [] :: added :: rest) := by
  simp only [lineWords_eq, String.toList_append]
  generalize a.toList = a, b.toList = b at hb
  by_cases hsplit : SplitsReturn a b
  · obtain ⟨hlast, hhead⟩ := hsplit
    obtain ⟨a, rfl⟩ := List.getLast?_eq_some_iff.1 hlast
    obtain ⟨b, rfl⟩ := List.head?_eq_some_iff.1 hhead
    obtain ⟨first, rest, hlines⟩ := exists_lineChars_eq_cons b
    have ha : lineChars (a ++ ['\r']) = lineChars a ++ [[]] := by
      rw [lineChars, normaliseChars_append (by simp [SplitsReturn])]
      exact List.splitOn_append_cons_self _ []
    have hb : lineChars ('\n' :: b) = [] :: first :: rest := by
      rw [lineChars, ← List.singleton_append, normaliseChars_append (by simp [SplitsReturn]),
        ← hlines]
      exact List.splitOn_append_cons_self [] _
    have hab : lineChars (a ++ ['\r'] ++ '\n' :: b) = lineChars a ++ first :: rest := by
      rw [List.append_assoc, List.singleton_append, lineChars, normaliseChars_append_return,
        List.splitOn_append_cons_self, ← hlines]
      rfl
    refine ⟨(lineChars a).map charWords, [], charWords first, rest.map charWords, ?_, ?_, .inr ?_⟩
    · rw [ha]
      simp
    · rw [hab]
      simp
    · rw [hb]
      simp
  · obtain ⟨init, last, ha⟩ := exists_lineChars_eq_concat a
    obtain ⟨first, rest, hlines⟩ := exists_lineChars_eq_cons b
    refine ⟨init.map charWords, charWords last, charWords first, rest.map charWords, ?_, ?_,
      .inl ?_⟩
    · rw [ha]
      simp
    · rw [lineChars_append hsplit ha hlines, List.map_append, List.map_cons,
        charWords_append_of_blank hb hlines]
    · rw [hlines]
      simp

/-! ### Texts without words -/

/-- Merging the ends of lines keeps every other character. -/
lemma mem_mergeReturns_iff {c : Char} (hc : c ≠ '\r') {text : List Char} :
    c ∈ mergeReturns text ↔ c ∈ text := by
  induction text with
  | nil => rw [mergeReturns]
  | cons d text ih =>
      rw [mergeReturns_cons]
      split
      · rename_i hreturn
        rw [ih, List.mem_cons, hreturn.1]
        simp [hc]
      · rw [List.mem_cons, List.mem_cons, ih]

/-- Blanks, and no other characters, become spaces and line feeds. -/
lemma forall_mem_normaliseChars_iff {text : List Char} :
    (∀ c ∈ normaliseChars text, c = ' ' ∨ c = '\n') ↔ ∀ c ∈ text, IsBlank c := by
  have hchar : ∀ d : Char, (∀ c ∈ (if (if d = '\r' then '\n' else d) = '\t' then tab else
      [if d = '\r' then '\n' else d]), c = ' ' ∨ c = '\n') ↔ IsBlank d := by
    intro d
    unfold IsBlank IsSpace IsLineEnd
    split_ifs with hreturn htab htab <;> simp_all [tab]
  have hmerged : (∀ d ∈ mergeReturns text, IsBlank d) ↔ ∀ d ∈ text, IsBlank d := by
    refine forall_congr' fun d => ?_
    by_cases hd : d = '\r'
    · simp [IsBlank, IsLineEnd, hd]
    · rw [mem_mergeReturns_iff hd]
  rw [normaliseChars, ← hmerged, List.flatMap_map, List.forall_mem_flatMap]
  exact forall₂_congr fun d _ => hchar d

/-- **The texts without words** have nothing but blanks. -/
lemma forall_mem_lineWords_eq_nil_iff {text : String} :
    (∀ ws ∈ lineWords text, ws = []) ↔ ∀ c ∈ text.toList, IsBlank c := by
  have hlines : (∀ line ∈ lineChars text.toList, ∀ c ∈ line, c = ' ')
      ↔ ∀ c ∈ (lineChars text.toList).flatten, c = ' ' := by
    simp only [List.mem_flatten]
    exact ⟨fun h c ⟨line, hline, hc⟩ => h line hline c hc,
      fun h line hline c hc => h c ⟨line, hline, hc⟩⟩
  rw [← forall_mem_normaliseChars_iff, lineWords_eq, List.forall_mem_map]
  simp only [charWords_eq_nil_iff]
  rw [hlines, lineChars, flatten_splitOn]
  refine forall_congr' fun c => ?_
  by_cases hc : c = '\n' <;> simp [hc]

end Folio
