import Mathlib.Tactic
import Mathlib.Data.List.DropRight
import Folio.Proofs.Layout.LineWords
import Folio.Proofs.Layout.Memory
import Folio.Proofs.Layout.Stacking

/-!
Texts that differ in their blanks only. Pagination looks at nothing but the words of each line
(`paginate_eq_layOut`), and not at empty lines at the end (`layOut_trimmed`); both are the same for
texts that are `Respaced`.
-/

namespace Folio

/-! ### Pagination of words -/

/-- The pages of a text, or why there are none, from the words of its lines. -/
def layOut (setup : PageSetup) (measure : Measurer) (lines : List (List String)) :
    Except Error (List Page) := do
  setup.check.mapError .invalidSetup
  let wrapped ← lines.mapM (wrapWords measure.width setup.contentBox.width)
  return stackAll setup wrapped

/-- **Pagination looks at the words of each line only.** -/
lemma paginate_eq_layOut (text : String) (setup : PageSetup) (measure : Measurer) :
    paginate text setup measure = layOut setup measure (lineWords text) := by
  have hwrapped : wrapLines measure.width setup.contentBox.width text
      = (lineWords text).mapM (wrapWords measure.width setup.contentBox.width) := by
    rw [wrapLines, lineWords, List.mapM_map,
      funext (wrap_eq_wrapWords measure.width setup.contentBox.width)]
    rfl
  rw [paginate_eq, layOut, hwrapped]

/-- The words of lines, without empty lines at the end. -/
def trimmed (lines : List (List String)) : List (List String) := lines.rdropWhile List.isEmpty

lemma layOut_concat_nil (setup : PageSetup) (measure : Measurer) (lines : List (List String)) :
    layOut setup measure (lines ++ [[]]) = layOut setup measure lines := by
  have hsteps : ∀ wrapped : List (List String),
      stackAll setup (wrapped ++ [[]]) = stackAll setup wrapped := by
    intro wrapped
    have hgap : steps (wrapped ++ [[]]) = steps wrapped ++ [.gap] := by simp [steps]
    rw [stackAll, stackAll, hgap, stack_append_gaps setup _ _ _ (by simp)]
  rw [layOut, layOut, List.mapM_append]
  simp [wrapWords, hsteps]

/-- **Empty lines at the end** leave no trace. -/
lemma layOut_trimmed (setup : PageSetup) (measure : Measurer) (lines : List (List String)) :
    layOut setup measure (trimmed lines) = layOut setup measure lines := by
  induction lines using List.reverseRecOn with
  | nil => rfl
  | append_singleton lines ws ih =>
      cases ws with
      | nil => rw [trimmed, List.rdropWhile_concat_pos _ _ _ rfl, ← trimmed, ih, layOut_concat_nil]
      | cons w ws => rw [trimmed, List.rdropWhile_concat_neg _ _ _ (by simp)]

/-! ### Blanks -/

/-- The ways to end a line. -/
def lineEnds : List String := ["\r\n", "\r", "\n"]

/-- The two texts meet at the start or at the end of a line. -/
def AtLineEdge (a b : String) : Prop :=
  ¬ SplitsReturn a.toList b.toList ∧
    ((∀ c ∈ a.toList.getLast?, IsLineEnd c) ∨ ∀ c ∈ b.toList.head?, IsLineEnd c)

/-- The two texts differ in their blanks only. -/
inductive Respaced : String → String → Prop
  | refl (t : String) : Respaced t t
  | symm {s t : String} : Respaced s t → Respaced t s
  | trans {s t u : String} : Respaced s t → Respaced t u → Respaced s u
  /-- One end of a line is exchanged for another one. Neither forms an end of a line with what is
  next to it. -/
  | lineEnd {a b e f : String} (he : e ∈ lineEnds) (hf : f ∈ lineEnds)
      (hae : ¬ SplitsReturn a.toList e.toList) (heb : ¬ SplitsReturn e.toList b.toList)
      (haf : ¬ SplitsReturn a.toList f.toList) (hfb : ¬ SplitsReturn f.toList b.toList) :
      Respaced (a ++ e ++ b) (a ++ f ++ b)
  /-- A run of spaces and tabs is exchanged for another one. At the edge of a line, one of them may
  be empty. -/
  | spaces {a b s t : String} (hs : ∀ c ∈ s.toList, IsSpace c) (ht : ∀ c ∈ t.toList, IsSpace c)
      (h : s ≠ "" ∧ t ≠ "" ∨ AtLineEdge a b) : Respaced (a ++ s ++ b) (a ++ t ++ b)
  /-- Blanks are added at the end, among them whole blank lines. -/
  | blanks {s t : String} (hs : ∀ c ∈ s.toList, IsBlank c) : Respaced (t ++ s) t

lemma normaliseChars_lineEnd {a b e : String} (he : e ∈ lineEnds)
    (hae : ¬ SplitsReturn a.toList e.toList) (heb : ¬ SplitsReturn e.toList b.toList) :
    normaliseChars (a ++ e ++ b).toList
      = normaliseChars a.toList ++ '\n' :: normaliseChars b.toList := by
  have hfeed : normaliseChars e.toList = ['\n'] ∧ e.toList ≠ [] := by
    rcases List.mem_cons.1 he with rfl | he
    · decide
    · rcases List.mem_cons.1 he with rfl | he
      · decide
      · rw [List.mem_singleton.1 he]
        decide
  have hseam : ¬ SplitsReturn (a.toList ++ e.toList) b.toList := fun ⟨hlast, hhead⟩ =>
    heb ⟨by rwa [List.getLast?_append_of_ne_nil _ hfeed.2] at hlast, hhead⟩
  rw [String.toList_append, String.toList_append, normaliseChars_append hseam,
    normaliseChars_append hae, hfeed.1, List.append_assoc]
  rfl

lemma last_eq_nil {a last : List Char} {init : List (List Char)}
    (ha : ∀ c ∈ a.getLast?, IsLineEnd c) (hlines : lineChars a = init ++ [last]) : last = [] := by
  cases hlast : a.getLast? with
  | none =>
      rw [List.getLast?_eq_none_iff.1 hlast] at hlines
      have hnil : [] ++ [[]] = init ++ [last] := hlines
      exact (List.append_singleton_inj.1 hnil).2.symm
  | some c =>
      obtain ⟨a, rfl⟩ := List.getLast?_eq_some_iff.1 hlast
      obtain ⟨text, htext⟩ : ∃ text, normaliseChars (a ++ [c]) = text ++ ['\n'] := by
        by_cases hsplit : SplitsReturn a [c]
        · obtain ⟨hreturn, hfeed⟩ := hsplit
          obtain rfl : c = '\n' := Option.some.inj hfeed
          obtain ⟨a, rfl⟩ := List.getLast?_eq_some_iff.1 hreturn
          rw [List.append_assoc]
          exact ⟨_, normaliseChars_append_return a []⟩
        · rw [normaliseChars_append hsplit]
          rcases ha c hlast with rfl | rfl
          · exact ⟨_, rfl⟩
          · exact ⟨_, rfl⟩
      rw [lineChars, htext, List.splitOn_append_cons_self] at hlines
      exact (List.append_singleton_inj.1 hlines).2.symm

/-- Spaces and tabs make one line, and one that starts with a space. -/
lemma exists_lineChars_spaces {s : List Char} (hs : ∀ c ∈ s, IsSpace c) (hne : s ≠ []) :
    ∃ line, lineChars s = [' ' :: line] ∧ ∀ c ∈ line, c = ' ' := by
  have hspaces : ∀ c ∈ normaliseChars s, c = ' ' := by
    clear hne
    induction s with
    | nil => simp [normaliseChars, mergeReturns]
    | cons c s ih =>
        obtain ⟨hc, hs⟩ := List.forall_mem_cons.1 hs
        have hsplit : ¬ SplitsReturn [c] s :=
          not_splitsReturn_of_isSpace (by simpa using hc) s
        have hchar : ∀ d ∈ normaliseChars [c], d = ' ' := by
          rcases hc with rfl | rfl
          · simp [normaliseChars, mergeReturns]
          · simp [normaliseChars, mergeReturns, tab]
        rw [← List.singleton_append, normaliseChars_append hsplit]
        exact List.forall_mem_append.2 ⟨hchar, ih hs⟩
  obtain ⟨c, s, rfl⟩ := List.exists_cons_of_ne_nil hne
  obtain ⟨line, hline⟩ := exists_normaliseChars_of_isSpace (hs c List.mem_cons_self) s
  rw [hline] at hspaces
  refine ⟨line, ?_, fun d hd => hspaces d (List.mem_cons_of_mem _ hd)⟩
  rw [lineChars, hline, List.splitOn_eq_singleton]
  intro hfeed
  exact absurd (hspaces _ hfeed) (by decide)

/-- Spaces at the start of a line belong to no word. -/
lemma charWords_spaces_append {spaces : List Char} (h : ∀ c ∈ spaces, c = ' ') (line : List Char) :
    charWords (spaces ++ line) = charWords line := by
  induction spaces with
  | nil => rfl
  | cons c spaces ih =>
      obtain ⟨rfl, hspaces⟩ := List.forall_mem_cons.1 h
      rw [List.cons_append, charWords_cons_space, ih hspaces]

/-- **Spaces and tabs between two texts** keep their words apart, however many they are. At the edge
of a line there need not be any. -/
lemma map_charWords_lineChars {a s b last first : List Char} {init rest : List (List Char)}
    (hs : ∀ c ∈ s, IsSpace c)
    (h : s ≠ [] ∨ ¬ SplitsReturn a b ∧
      ((∀ c ∈ a.getLast?, IsLineEnd c) ∨ ∀ c ∈ b.head?, IsLineEnd c))
    (ha : lineChars a = init ++ [last]) (hb : lineChars b = first :: rest) :
    (lineChars (a ++ s ++ b)).map charWords
      = init.map charWords ++ (charWords last ++ charWords first) :: rest.map charWords := by
  by_cases hne : s = []
  · obtain ⟨hsplit, hedge⟩ := h.resolve_left fun h => h hne
    have hwords : charWords (last ++ first) = charWords last ++ charWords first := by
      rcases hedge with hedge | hedge
      · rw [last_eq_nil hedge ha]
        rfl
      · rw [first_eq_nil hedge hb]
        simp
    rw [hne, List.append_nil, lineChars_append hsplit ha hb, List.map_append, List.map_cons, hwords]
  · obtain ⟨line, hline, hspaces⟩ := exists_lineChars_spaces hs hne
    have hsb : ¬ SplitsReturn s b :=
      not_splitsReturn_of_isSpace (fun c hc => hs c (List.mem_of_getLast? hc)) b
    have hasb : ¬ SplitsReturn a (s ++ b) := fun ⟨_, hfeed⟩ => by
      rw [List.head?_append_of_ne_nil _ hne] at hfeed
      simpa [IsSpace] using hs _ (List.mem_of_mem_head? hfeed)
    have hsingle : lineChars s = [] ++ [' ' :: line] := hline
    have hlines : lineChars (s ++ b) = (' ' :: line ++ first) :: rest :=
      lineChars_append hsb hsingle hb
    rw [List.append_assoc, lineChars_append hasb ha hlines, List.map_append, List.map_cons,
      List.cons_append, charWords_append_space, charWords_spaces_append hspaces]

lemma trimmed_append {lines empty : List (List String)} (h : ∀ ws ∈ empty, ws = []) :
    trimmed (lines ++ empty) = trimmed lines := by
  have hempty : ∀ ws ∈ empty.reverse, ws.isEmpty = true := by simpa using h
  rw [trimmed, List.rdropWhile, List.reverse_append, List.dropWhile_append_of_pos hempty]
  rfl

/-- **Texts that differ in their blanks only** have the same words on each line, up to empty lines
at the end. -/
lemma Respaced.trimmed_lineWords {s t : String} (h : Respaced s t) :
    trimmed (lineWords s) = trimmed (lineWords t) := by
  induction h with
  | refl t => rfl
  | symm _ ih => exact ih.symm
  | trans _ _ ihs iht => exact ihs.trans iht
  | lineEnd he hf hae heb haf hfb =>
      rw [lineWords_eq, lineWords_eq, lineChars, lineChars, normaliseChars_lineEnd he hae heb,
        normaliseChars_lineEnd hf haf hfb]
  | @spaces a b s t hs ht h =>
      obtain ⟨init, last, ha⟩ := exists_lineChars_eq_concat a.toList
      obtain ⟨first, rest, hb⟩ := exists_lineChars_eq_cons b.toList
      have hsne : s.toList ≠ [] ∨ AtLineEdge a b := h.imp_left fun h => by simpa using h.1
      have htne : t.toList ≠ [] ∨ AtLineEdge a b := h.imp_left fun h => by simpa using h.2
      simp only [lineWords_eq, String.toList_append]
      rw [map_charWords_lineChars hs hsne ha hb, map_charWords_lineChars ht htne ha hb]
  | @blanks s t hs =>
      have hempty := forall_mem_lineWords_eq_nil_iff.2 hs
      obtain ⟨init, last, added, rest, ht, hts, hlines⟩ :=
        lineWords_append (a := t) fun c hc => hs c (List.mem_of_mem_head? hc)
      have hnil : ∀ ws ∈ added :: rest, ws = [] := by
        rcases hlines with hlines | hlines
        · rwa [← hlines]
        · exact fun ws hws => hempty ws (hlines ▸ List.mem_cons_of_mem _ hws)
      obtain ⟨rfl, hrest⟩ := List.forall_mem_cons.1 hnil
      rw [hts, ht, List.append_nil, List.append_cons, trimmed_append hrest]

/-- **Pagination depends on the words of each line only.** Two texts with the same words on each
line, up to empty lines at the end, have the same pages, or fail with the same error. So do texts
that differ only in how their lines end, in the lengths of runs of spaces and tabs within, before
or after a line, and in blank lines at the end. -/
theorem paginate_depends_on_lineWords (t₁ t₂ : String) (setup : PageSetup) (measure : Measurer) :
    (trimmed (lineWords t₁) = trimmed (lineWords t₂) →
      paginate t₁ setup measure = paginate t₂ setup measure) ∧
    (Respaced t₁ t₂ → paginate t₁ setup measure = paginate t₂ setup measure) := by
  have hwords : trimmed (lineWords t₁) = trimmed (lineWords t₂) →
      paginate t₁ setup measure = paginate t₂ setup measure := fun h => by
    rw [paginate_eq_layOut, paginate_eq_layOut, ← layOut_trimmed, h, layOut_trimmed]
  exact ⟨hwords, fun h => hwords h.trimmed_lineWords⟩

/-- A text with carriage returns, a tab and blanks at the end, against one with line feeds and
single spaces: by the words of their lines, and by exchanging one run of blanks after the other. -/
theorem paginate_depends_on_lineWords_of_blanks :
    let setup : PageSetup := ⟨20, 40, 5, 5, 10, 5⟩
    let measure : Measurer := .refusing "q" "no glyph" (.monospace 3)
    (trimmed (lineWords " a\tb\r\nq\r\r ") = trimmed (lineWords "a b\nq") ∧
      paginate " a\tb\r\nq\r\r " setup measure = paginate "a b\nq" setup measure) ∧
    Respaced "\ta\tb\r\nc\r\r " "a b\nc" ∧
      paginate "\ta\tb\r\nc\r\r " setup measure = paginate "a b\nc" setup measure := by
  intro setup measure
  have hwords : trimmed (lineWords " a\tb\r\nq\r\r ") = trimmed (lineWords "a b\nq") := by
    decide +kernel
  have hstart : Respaced ("" ++ "\t" ++ "a\tb\r\nc\r\r ") ("" ++ "" ++ "a\tb\r\nc\r\r ") :=
    .spaces (by simp [IsSpace]) (by simp) (.inr (by simp [AtLineEdge, SplitsReturn]))
  have htab : Respaced ("a" ++ "\t" ++ "b\r\nc\r\r ") ("a" ++ " " ++ "b\r\nc\r\r ") :=
    .spaces (by simp [IsSpace]) (by simp [IsSpace]) (.inl (by simp))
  have hfeed : Respaced ("a b" ++ "\r\n" ++ "c\r\r ") ("a b" ++ "\n" ++ "c\r\r ") :=
    .lineEnd (by simp [lineEnds]) (by simp [lineEnds]) (by simp [SplitsReturn])
      (by simp [SplitsReturn]) (by simp [SplitsReturn]) (by simp [SplitsReturn])
  have hend : Respaced ("a b\nc" ++ "\r\r ") "a b\nc" :=
    .blanks (by simp [IsBlank, IsSpace, IsLineEnd])
  have hrespaced : Respaced "\ta\tb\r\nc\r\r " "a b\nc" :=
    hstart.trans (htab.trans (hfeed.trans hend))
  exact ⟨⟨hwords, (paginate_depends_on_lineWords _ _ setup measure).1 hwords⟩, hrespaced,
    (paginate_depends_on_lineWords _ _ setup measure).2 hrespaced⟩

end Folio
