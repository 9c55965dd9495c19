import Mathlib.Tactic
import Folio.Layout.Page

/-!
Fragments as groups of words.

* `joinWords` puts single spaces between words, and `splitWords` cuts at every space.
* `Cuts`: a list of words cut into consecutive groups, none of them empty.
* `wrap_eq_ok`: the fragments of a line are the joined groups of a cut of its words.
-/

namespace Folio

/-! ### Joining and splitting words -/

/-- Words with single spaces between them. -/
def joinWords (ws : List String) : String := " ".intercalate ws

/-- The parts of a text between its spaces. -/
def splitWords (text : String) : List String := (text.toList.splitOn ' ').map String.ofList

@[simp] lemma joinWords_singleton (w : String) : joinWords [w] = w := String.intercalate_singleton

lemma joinWords_concat {ws : List String} (h : ws ≠ []) (w : String) :
    joinWords (ws ++ [w]) = joinWords ws ++ " " ++ w := by
  rw [joinWords, String.intercalate_append_of_ne_nil h (List.cons_ne_nil w []),
    String.intercalate_singleton, joinWords]

/-- Splitting undoes joining, if no word has a space of its own. -/
lemma splitWords_joinWords {ws : List String} (hne : ws ≠ []) (h : ∀ w ∈ ws, ' ' ∉ w.toList) :
    splitWords (joinWords ws) = ws := by
  have hspace : " ".toList = [' '] := rfl
  rw [splitWords, joinWords, String.toList_intercalate, hspace,
    List.splitOn_intercalate ' ' (by simpa using h) (by simpa using hne)]
  simp

lemma notMem_of_mem_splitOn {x : Char} {text part : List Char} (h : part ∈ text.splitOn x) :
    x ∉ part := by
  induction text generalizing part with
  | nil => simp_all
  | cons c text ih =>
      rw [List.splitOn_cons_eq_if_modifyHead] at h
      split at h
      · rcases List.mem_cons.1 h with rfl | h
        · simp
        · exact ih h
      · rename_i hc
        cases hparts : text.splitOn x with
        | nil => exact absurd hparts (List.splitOn_ne_nil x text)
        | cons first parts =>
            rw [hparts, List.modifyHead_cons, List.mem_cons] at h
            rcases h with rfl | h
            · have hfirst : x ∉ first := ih (hparts ▸ List.mem_cons_self)
              have hne : x ≠ c := fun heq => hc (beq_iff_eq.2 heq.symm)
              simp [hfirst, hne]
            · exact ih (hparts ▸ List.mem_cons_of_mem first h)

lemma space_notMem_of_mem_words {line w : String} (h : w ∈ words line) : ' ' ∉ w.toList := by
  obtain ⟨part, hpart, rfl⟩ := List.mem_map.1 h
  rw [String.toList_ofList]
  exact notMem_of_mem_splitOn (List.mem_filter.1 hpart).1

lemma ne_empty_of_mem_words {line w : String} (h : w ∈ words line) : w ≠ "" := by
  obtain ⟨part, hpart, rfl⟩ := List.mem_map.1 h
  have hne : part ≠ [] := by simpa using (List.mem_filter.1 hpart).2
  simpa [← String.toList_inj] using hne

/-! ### Cuts -/

/-- Consecutive groups of a list of words, none of them empty. -/
structure Cuts (groups : List (List String)) (ws : List String) : Prop where
  flatten_eq : groups.flatten = ws
  ne_nil : ∀ g ∈ groups, g ≠ []

namespace Cuts

lemma nil : Cuts [] [] := ⟨rfl, by simp⟩

lemma single {ws : List String} (h : ws ≠ []) : Cuts [ws] ws := ⟨by simp, by simpa using h⟩

lemma cons {groups : List (List String)} {g ws : List String} (hg : g ≠ [])
    (h : Cuts groups ws) : Cuts (g :: groups) (g ++ ws) :=
  ⟨by rw [List.flatten_cons, h.flatten_eq], fun k hk => by
    rcases List.mem_cons.1 hk with rfl | hk
    · exact hg
    · exact h.ne_nil k hk⟩

/-- A cut has no group exactly if there is no word. -/
lemma eq_nil_iff {groups : List (List String)} {ws : List String} (h : Cuts groups ws) :
    groups = [] ↔ ws = [] := by
  constructor
  · rintro rfl
    exact h.flatten_eq.symm
  · rintro rfl
    refine List.eq_nil_iff_forall_not_mem.2 fun g hg => h.ne_nil g hg ?_
    exact List.flatten_eq_nil_iff.1 h.flatten_eq g hg

lemma mem {groups : List (List String)} {g ws : List String} {w : String} (h : Cuts groups ws)
    (hg : g ∈ groups) (hw : w ∈ g) : w ∈ ws :=
  h.flatten_eq ▸ List.mem_flatten_of_mem hg hw

end Cuts

/-! ### The fragments of a line -/

/-- The fragments of some words, of which the first one is measured, but stays. -/
def wrapWords {m : Type → Type} [Monad m] (width : String → m Points) (limit : Points) :
    List String → m (List String)
  | [] => pure []
  | word :: rest => do
    let _ ← width word
    fill width limit word rest

/-- Wrapping looks at nothing but the words of a line. -/
lemma wrap_eq_wrapWords {m : Type → Type} [Monad m] (width : String → m Points) (limit : Points)
    (line : String) : wrap width limit line = wrapWords width limit (words line) := by
  rw [wrap]
  cases words line <;> rfl

variable {width : String → Except Error Points} {limit : Points}

/-- One more word joins the open fragment if the two together are narrow enough, and else completes
it and opens a fragment of its own. -/
lemma fill_cons_eq_ok_iff {fragment word : String} {rest fragments : List String} :
    fill width limit fragment (word :: rest) = .ok fragments ↔
      ∃ w, width (fragment ++ " " ++ word) = .ok w ∧
        (w < limit ∧ fill width limit (fragment ++ " " ++ word) rest = .ok fragments ∨
          ¬ w < limit ∧ ∃ later, fill width limit word rest = .ok later ∧
            fragments = fragment :: later) := by
  rw [fill]
  cases hw : width (fragment ++ " " ++ word) with
  | error e => simp [bind, Except.bind]
  | ok w =>
      by_cases hfits : w < limit
      · simp [bind, Except.bind, hfits]
      · cases hrest : fill width limit word rest with
        | error e => simp [bind, Except.bind, hfits]
        | ok later => simp [bind, Except.bind, pure, Except.pure, hfits, eq_comm]

/-- The first word is measured, and the others are filled in behind it. -/
lemma wrapWords_cons_eq_ok_iff {word : String} {rest fragments : List String} :
    wrapWords width limit (word :: rest) = .ok fragments ↔
      (∃ w, width word = .ok w) ∧ fill width limit word rest = .ok fragments := by
  rw [wrapWords]
  cases hw : width word with
  | error e => simp [bind, Except.bind]
  | ok w => simp [bind, Except.bind]

/-- Filling cuts the words at hand, those of the open fragment and those to come, into groups. -/
lemma fill_eq_ok {ws rest fragments : List String} (hne : ws ≠ [])
    (h : fill width limit (joinWords ws) rest = .ok fragments) :
    ∃ groups, Cuts groups (ws ++ rest) ∧ fragments = groups.map joinWords := by
  induction rest generalizing ws fragments with
  | nil =>
      refine ⟨[ws], by simpa using Cuts.single hne, ?_⟩
      exact (Except.ok.inj h).symm
  | cons word rest ih =>
      obtain ⟨w, -, ⟨-, hjoined⟩ | ⟨-, later, hlater, rfl⟩⟩ := fill_cons_eq_ok_iff.1 h
      · -- the word joins the open fragment
        rw [← joinWords_concat hne] at hjoined
        obtain ⟨groups, hcuts, hfragments⟩ := ih (by simp) hjoined
        exact ⟨groups, by simpa using hcuts, hfragments⟩
      · -- the open fragment is complete, and the word opens the next one
        rw [← joinWords_singleton word] at hlater
        obtain ⟨groups, hcuts, rfl⟩ := ih (List.cons_ne_nil word []) hlater
        exact ⟨ws :: groups, Cuts.cons hne hcuts, rfl⟩

/-- The fragments of a line are the joined groups of a cut of its words. -/
lemma wrap_eq_ok {line : String} {fragments : List String}
    (h : wrap width limit line = .ok fragments) :
    ∃ groups, Cuts groups (words line) ∧ fragments = groups.map joinWords := by
  rw [wrap_eq_wrapWords] at h
  cases hwords : words line with
  | nil =>
      rw [hwords] at h
      exact ⟨[], Cuts.nil, (Except.ok.inj h).symm⟩
  | cons word rest =>
      rw [hwords, wrapWords_cons_eq_ok_iff] at h
      have hfill := h.2
      rw [← joinWords_singleton word] at hfill
      exact fill_eq_ok (List.cons_ne_nil word []) hfill

/-- The words of the fragments are those of the line, in order. -/
lemma flatMap_splitWords_of_wrap {line : String} {fragments : List String}
    (h : wrap width limit line = .ok fragments) :
    fragments.flatMap splitWords = words line := by
  obtain ⟨groups, hcuts, rfl⟩ := wrap_eq_ok h
  have hsplit : ∀ g ∈ groups, splitWords (joinWords g) = g := fun g hg =>
    splitWords_joinWords (hcuts.ne_nil g hg) fun w hw =>
      space_notMem_of_mem_words (hcuts.mem hg hw)
  rw [List.flatMap_map, List.flatMap_congr hsplit, List.flatMap_id', hcuts.flatten_eq]

lemma exists_fill_eq_ok (htotal : ∀ text, ∃ w, width text = .ok w) (fragment : String)
    (rest : List String) : ∃ fragments, fill width limit fragment rest = .ok fragments := by
  induction rest generalizing fragment with
  | nil => exact ⟨[fragment], rfl⟩
  | cons word rest ih =>
      obtain ⟨w, hw⟩ := htotal (fragment ++ " " ++ word)
      by_cases hfits : w < limit
      · obtain ⟨fragments, hfragments⟩ := ih (fragment ++ " " ++ word)
        exact ⟨fragments, fill_cons_eq_ok_iff.2 ⟨w, hw, .inl ⟨hfits, hfragments⟩⟩⟩
      · obtain ⟨later, hlater⟩ := ih word
        exact ⟨_, fill_cons_eq_ok_iff.2 ⟨w, hw, .inr ⟨hfits, later, hlater, rfl⟩⟩⟩

/-- If every text can be measured, every line can be wrapped. -/
lemma exists_wrap_eq_ok (htotal : ∀ text, ∃ w, width text = .ok w) (line : String) :
    ∃ fragments, wrap width limit line = .ok fragments := by
  rw [wrap_eq_wrapWords]
  cases words line with
  | nil => exact ⟨[], rfl⟩
  | cons word rest =>
      obtain ⟨fragments, hfragments⟩ := exists_fill_eq_ok htotal word rest
      exact ⟨fragments, wrapWords_cons_eq_ok_iff.2 ⟨htotal word, hfragments⟩⟩

lemma ne_empty_of_mem_wrap {line fragment : String} {fragments : List String}
    (h : wrap width limit line = .ok fragments) (hf : fragment ∈ fragments) : fragment ≠ "" := by
  rintro rfl
  have hword : "" ∈ words line := by
    rw [← flatMap_splitWords_of_wrap h]
    exact List.mem_flatMap.2 ⟨"", hf, by simp [splitWords]⟩
  exact ne_empty_of_mem_words hword rfl

/-- A line has no fragment exactly if it has no word. -/
lemma wrap_eq_nil_iff {line : String} {fragments : List String}
    (h : wrap width limit line = .ok fragments) : fragments = [] ↔ words line = [] := by
  obtain ⟨groups, hcuts, rfl⟩ := wrap_eq_ok h
  rw [List.map_eq_nil_iff, hcuts.eq_nil_iff]

end Folio
