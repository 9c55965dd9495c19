import Mathlib.Tactic
import Folio.Proofs.Highlight.Comments
import Folio.Proofs.Highlight.Numerals
import Folio.Proofs.Highlight.SpanList
import Folio.Proofs.Highlight.Strings

/-!
The keyword spans of highlighted text. No pattern of the highlighter cuts a word
(`Highlight.respectsWords_of_mem_passes`), so that every byte of a word has the same last pass, and
a reserved word that stands alone is a span as a whole (`highlight_keywordSpans`).
-/

namespace Folio

open Text

namespace Highlight

variable {pre mid post : List Char}

/-! ### Patterns that respect words -/

/-- A place before a character that is not part of a word, or at the end of the text, is not inside
a word. -/
lemma not_insideWord_of_head? (h : ∀ x ∈ post.head?, isWord x = false) :
    ¬ InsideWord pre post := by
  rintro ⟨-, hany⟩
  obtain ⟨x, hx, hword⟩ := (Option.any_eq_true isWord post.head?).1 hany
  exact Bool.false_ne_true ((h x hx).symm.trans hword)

/-- A place behind a character that is not part of a word is not inside one. -/
lemma not_insideWord_concat {x : Char} (hx : isWord x = false) :
    ¬ InsideWord (pre ++ [x]) post := by
  rintro ⟨hany, -⟩
  rw [List.getLast?_concat] at hany
  exact Bool.false_ne_true (hx.symm.trans hany)

/-- A string starts with its quote, and ends with it or at the end of a line. -/
lemma respectsWords_quotedString {quote : Char} (hquote : isWord quote = false) :
    (quotedString quote).RespectsWords := by
  intro pre mid post hend
  obtain ⟨body, closing, rfl, -, hclosing⟩ :=
    matches_quotedString_iff.1 (Pattern.matches_of_end? hend)
  refine ⟨not_insideWord_of_head? (by simpa using hquote), ?_⟩
  rcases hclosing with rfl | ⟨rfl, hline⟩
  · have hlast : pre ++ quote :: (body ++ [quote]) = pre ++ quote :: body ++ [quote] := by simp
    rw [hlast]
    exact not_insideWord_concat hquote
  · refine not_insideWord_of_head? fun z hz => ?_
    rw [hline z hz]
    decide +kernel

lemma respectsWords_blockComment : blockComment.RespectsWords := by
  intro pre mid post hend
  obtain ⟨body, closing, rfl, hclosing⟩ :=
    matches_blockComment_iff.1 (Pattern.matches_of_end? hend)
  have hslash : isWord '/' = false := by decide +kernel
  refine ⟨not_insideWord_of_head? (by simpa using hslash), ?_⟩
  rcases hclosing with rfl | ⟨rfl, rfl⟩
  · have hlast : pre ++ (['/', '*'] ++ (body ++ ['*', '/']))
        = pre ++ ['/', '*'] ++ body ++ ['*'] ++ ['/'] := by simp
    rw [hlast]
    exact not_insideWord_concat hslash
  · exact not_insideWord_of_head? (by simp)

lemma respectsWords_lineComment : lineComment.RespectsWords := by
  intro pre mid post hend
  obtain ⟨body, rfl, -, hpost⟩ := exists_of_end?_lineComment hend
  have hslash : isWord '/' = false := by decide +kernel
  refine ⟨not_insideWord_of_head? (by simpa using hslash), not_insideWord_of_head? fun x hx => ?_⟩
  rw [hpost x hx]
  decide +kernel

/-! ### Reserved words -/

/-- The words of the table are not empty and have word characters only. -/
def IsWordTable (words : List String) : Prop :=
  ∀ w ∈ words, w.toList ≠ [] ∧ ∀ c ∈ w.toList, isWord c = true

variable {words : List String} {text : List Char}

lemma isWord_of_mem_keywords (language : Language) : ∀ w ∈ language.keywords, w.toList ≠ [] ∧
    ∀ c ∈ w.toList, isWord c = true ∧ c.isDigit = false ∧ c ≠ '.' := by
  have htable : language.keywords.all (fun w => !w.toList.isEmpty &&
      w.toList.all fun c => isWord c && !c.isDigit && c != '.') = true := by
    cases language <;> decide +kernel
  intro w hw
  simpa [and_assoc] using List.all_eq_true.1 htable w hw

lemma isWordTable_keywords (language : Language) : IsWordTable language.keywords := fun w hw =>
  ⟨(isWord_of_mem_keywords language w hw).1, fun c hc =>
    ((isWord_of_mem_keywords language w hw).2 c hc).1⟩

lemma matches_keywords_iff : (keywords words).Matches pre mid post ↔
    String.ofList mid ∈ words ∧ AtEdge pre (mid ++ post) ∧ AtEdge (pre ++ mid) post := by
  constructor
  · rintro ⟨m₁, m₂, rfl, ⟨rfl, hstart⟩, word, m₃, rfl, hword, m₄, m₅, rfl, ⟨rfl, hstop⟩, rfl⟩
    obtain ⟨p, hp, hmatches⟩ := Pattern.matches_anyOf_iff.1 hword
    obtain ⟨w, hw, rfl⟩ := List.mem_map.1 hp
    obtain rfl : word = w.toList := hmatches
    refine ⟨?_, by simpa using hstart, by simpa using hstop⟩
    simpa using hw
  · rintro ⟨hw, hstart, hstop⟩
    refine ⟨[], mid, rfl, ⟨rfl, hstart⟩, mid, [], (List.append_nil mid).symm, ?_, [], [], rfl,
      ⟨rfl, by simpa using hstop⟩, rfl⟩
    exact Pattern.matches_anyOf_iff.2
      ⟨_, List.mem_map.2 ⟨_, hw, rfl⟩, String.toList_ofList.symm⟩

lemma matches_keywords_iff_wordRun (hwords : IsWordTable words) :
    (keywords words).Matches pre mid post ↔ String.ofList mid ∈ words ∧
      WordRun (pre ++ (mid ++ post)) (byteCount pre) (byteCount (pre ++ mid)) mid := by
  rw [matches_keywords_iff, wordRun_append_iff]
  refine and_congr_right fun hw => ?_
  obtain ⟨hne, hmid⟩ := hwords _ hw
  rw [String.toList_ofList] at hne hmid
  rw [atEdge_before_word (any_head?_of_forall hne hmid post),
    atEdge_behind_word (any_getLast?_of_forall hne hmid pre)]
  exact ⟨fun hedges => ⟨hne, hmid, hedges⟩, fun hrun => hrun.2.2⟩

/-- A keyword pattern matches at most one word at a place, whichever alternatives it prefers. -/
lemma end?_keywords (hwords : IsWordTable words) (h : (keywords words).Matches pre mid post) :
    (keywords words).end? (.between pre (mid ++ post)) = some (.between (pre ++ mid) post) := by
  refine Pattern.end?_of_unique h fun {mid' post'} htext hmatches => ?_
  obtain ⟨-, hrun⟩ := (matches_keywords_iff_wordRun hwords).1 h
  obtain ⟨-, hrun'⟩ := (matches_keywords_iff_wordRun hwords).1 hmatches
  rw [← htext] at hrun'
  obtain ⟨-, hstop⟩ := hrun.eq_of_touch hrun' (hrun'.start_lt_stop.le) (hrun.start_lt_stop.le)
  rw [byteCount_append, byteCount_append] at hstop
  exact (append_inj_of_byteCount htext (Nat.add_left_cancel hstop)).1.symm

/-- **The keyword pattern finds the words of its table**, each where it stands alone. -/
theorem mem_occurrences_keywords_iff (hwords : IsWordTable words) {start stop : Nat} :
    ⟨start, stop⟩ ∈ (keywords words).occurrences text ↔
      ∃ word, WordRun text start stop word ∧ String.ofList word ∈ words := by
  have hfound : ∀ r ∈ (keywords words).occurrences text,
      ∃ word, WordRun text r.start r.stop word ∧ String.ofList word ∈ words := by
    intro r hr
    obtain ⟨pre, mid, post, rfl, -, hend, rfl⟩ := Pattern.exists_of_mem_occurrences hr
    obtain ⟨hmem, hrun⟩ :=
      (matches_keywords_iff_wordRun hwords).1 (Pattern.matches_of_end? hend)
    exact ⟨mid, hrun, hmem⟩
  constructor
  · exact hfound ⟨start, stop⟩
  · rintro ⟨word, hrun, hmem⟩
    have hfree : ∀ r ∈ (keywords words).occurrences text, ¬ (r.start < start ∧ start < r.stop) := by
      rintro r hr ⟨hlt, hlt'⟩
      obtain ⟨word', hrun', -⟩ := hfound r hr
      exact hrun.not_inWord.1 (hrun'.inWord hrun.isCut.1 hlt hlt')
    obtain ⟨pre, post, rfl, rfl, rfl, hne, -⟩ := id hrun
    have hmatches := (matches_keywords_iff_wordRun hwords).2 ⟨hmem, hrun⟩
    exact Pattern.mem_occurrences_of_end? rfl hne (end?_keywords hwords hmatches) hfree

/-- **The order of the table does not matter**, nor do repetitions in it. -/
theorem occurrences_keywords_congr (hwords : IsWordTable words) {table : List String}
    (htable : ∀ w, w ∈ table ↔ w ∈ words) (text : List Char) :
    (keywords table).occurrences text = (keywords words).occurrences text := by
  have hend : ∀ {a b : List String}, IsWordTable b → (∀ w, w ∈ a → w ∈ b) → ∀ {pre rest d},
      (keywords a).end? (.between pre rest) = some d →
        (keywords b).end? (.between pre rest) = some d := by
    intro a b hb hab pre rest d hd
    obtain ⟨mid, post, rfl, hmatches, rfl⟩ := Pattern.exists_matches_of_end? hd
    obtain ⟨hmem, hedges⟩ := matches_keywords_iff.1 hmatches
    exact end?_keywords hb (matches_keywords_iff.2 ⟨hab _ hmem, hedges⟩)
  have hwords' : IsWordTable table := fun w hw => hwords w ((htable w).1 hw)
  refine Pattern.occurrences_congr (fun pre rest => Option.ext fun d => ?_) text
  exact ⟨hend hwords fun w => (htable w).1, hend hwords' fun w => (htable w).2⟩

/-! ### Passes and words -/

/-- The patterns of strings and comments. -/
def stringsAndComments : List Pattern :=
  [quotedString '"', quotedString '\'', lineComment, blockComment]

/-- No pattern of the highlighter cuts a word. -/
theorem respectsWords_of_mem_passes {language : Language} {pass : Category × Pattern}
    (h : pass ∈ passes language) : pass.2.RespectsWords := by
  simp only [passes, List.mem_cons, List.not_mem_nil, or_false] at h
  rcases h with rfl | rfl | rfl | rfl | rfl | rfl
  · intro pre mid post hend
    obtain ⟨-, hstart, hstop⟩ := matches_keywords_iff.1 (Pattern.matches_of_end? hend)
    exact ⟨hstart.not_insideWord, hstop.not_insideWord⟩
  · exact respectsWords_quotedString (by decide +kernel)
  · exact respectsWords_quotedString (by decide +kernel)
  · exact respectsWords_lineComment
  · exact respectsWords_blockComment
  · intro pre mid post hend
    obtain ⟨hstart, hstop, -⟩ := matches_number (Pattern.matches_of_end? hend)
    exact ⟨hstart.not_insideWord, hstop.not_insideWord⟩

variable {language : Language} {word : List Char} {start stop i j : Nat}

lemma covered_eq_of_wordRun {pass : Category × Pattern} (hpass : pass ∈ passes language)
    (hw : WordRun text start stop word) (hi : start ≤ i ∧ i < stop) (hj : start ≤ j ∧ j < stop) :
    covered text pass i = covered text pass j := by
  have hp := respectsWords_of_mem_passes hpass
  rw [Bool.eq_iff_iff, covered_iff, covered_iff]
  refine exists_congr fun r => and_congr_right fun hr => ?_
  rw [hp.covers_iff hr hw hi.1 hi.2, hp.covers_iff hr hw hj.1 hj.2]

/-- Every byte of a word has the same last pass. -/
theorem lastPass_eq_of_wordRun (hw : WordRun text start stop word) (hi : start ≤ i ∧ i < stop)
    (hj : start ≤ j ∧ j < stop) :
    lastPass text (passes language) i = lastPass text (passes language) j :=
  lastPass_congr fun _ hpass => covered_eq_of_wordRun hpass hw hi hj

/-- A byte is that of a keyword if the keyword pass has a match on it and no pass after that. -/
lemma lastPass_eq_keyword_iff : lastPass text (passes language) i = some .keyword ↔
    covered text (.keyword, keywords language.keywords) i = true ∧
      ∀ pass ∈ (passes language).tail, covered text pass i = false := by
  have hlater : ∀ pass ∈ (passes language).tail, pass.1 ≠ Category.keyword := by
    intro pass hpass
    simp only [passes, List.tail_cons, List.mem_cons, List.not_mem_nil, or_false] at hpass
    rcases hpass with rfl | rfl | rfl | rfl | rfl <;> simp
  exact lastPass_cons_eq_some_iff hlater

lemma covered_number_eq_false (hw : WordRun text start stop word)
    (hmem : String.ofList word ∈ language.keywords) (hi : start ≤ i ∧ i < stop) :
    covered text (.number, number) i = false := by
  by_contra hne
  obtain ⟨r, hr, hcovers⟩ := covered_iff.1 (Bool.eq_true_of_not_eq_false hne)
  have hnumber : (Category.number, number) ∈ passes language := by simp [passes]
  obtain ⟨hle, hle'⟩ :=
    ((respectsWords_of_mem_passes hnumber).covers_iff hr hw hi.1 hi.2).1 hcovers
  obtain ⟨a, mid, b, htext, -, hend, rfl⟩ := Pattern.exists_of_mem_occurrences hr
  obtain ⟨-, -, hdigits⟩ := matches_number (Pattern.matches_of_end? hend)
  obtain ⟨pre, post, htext', rfl, rfl, hword, -⟩ := hw
  have hpart := isInfix_of_le (htext.symm.trans htext') hle hle'
  have hhead := List.head_mem hword
  obtain ⟨-, hletters⟩ := isWord_of_mem_keywords language _ hmem
  obtain ⟨-, hdigit, hpoint⟩ := hletters (word.head hword) (by rwa [String.toList_ofList])
  rcases hdigits _ (hpart.subset hhead) with hyes | hyes
  · exact Bool.false_ne_true (hdigit.symm.trans hyes)
  · exact hpoint hyes

/-- A byte of a reserved word is that of a keyword, unless a string or a comment has a match
there. -/
lemma lastPass_eq_keyword_of_wordRun (hw : WordRun text start stop word)
    (hmem : String.ofList word ∈ language.keywords) (hi : start ≤ i ∧ i < stop) :
    lastPass text (passes language) i = some .keyword ↔
      ∀ p ∈ stringsAndComments, ∀ r ∈ p.occurrences text, ¬ r.Covers i := by
  have hcovered : covered text (.keyword, keywords language.keywords) i = true :=
    covered_iff.2 ⟨⟨start, stop⟩, (mem_occurrences_keywords_iff (isWordTable_keywords language)).2
      ⟨word, hw, hmem⟩, hi⟩
  have hnumber := covered_number_eq_false hw hmem hi
  have hfree : ∀ (category : Category) (p : Pattern), covered text (category, p) i = false ↔
      ∀ r ∈ p.occurrences text, ¬ r.Covers i := by
    intro category p
    simp [covered]
  rw [lastPass_eq_keyword_iff]
  simp only [passes, List.tail_cons, List.forall_mem_cons, hcovered, hnumber]
  simp [stringsAndComments, hfree]

/-- A byte of a keyword lies in a reserved word of the text. -/
lemma exists_wordRun_of_lastPass (h : lastPass text (passes language) i = some .keyword) :
    ∃ start stop word, WordRun text start stop word ∧ String.ofList word ∈ language.keywords ∧
      start ≤ i ∧ i < stop := by
  obtain ⟨hcovered, -⟩ := lastPass_eq_keyword_iff.1 h
  obtain ⟨r, hr, hi⟩ := covered_iff.1 hcovered
  obtain ⟨word, hw, hmem⟩ := (mem_occurrences_keywords_iff (isWordTable_keywords language)).1 hr
  exact ⟨r.start, r.stop, word, hw, hmem, hi⟩

end Highlight

open Highlight

/-- A keyword span is a reserved word of the text, from its first byte to its last one. -/
lemma exists_wordRun_of_mem_highlight {text : String} {language : Language} {start stop : Nat}
    (h : ⟨start, stop, .keyword⟩ ∈ highlight text language) :
    ∃ word, WordRun text.toList start stop word ∧ String.ofList word ∈ language.keywords ∧
      lastPass text.toList (passes language) start = some .keyword := by
  obtain ⟨hlt, hrun, hbefore, hbehind⟩ := mem_highlight_iff.1 h
  have hkeyword := hrun start ⟨le_refl _, hlt⟩
  obtain ⟨a, b, word, hw, hmem, hle, hlt'⟩ := exists_wordRun_of_lastPass hkeyword
  -- all of the word is of one category, so that it starts and stops with the span
  have hword : ∀ i, a ≤ i → i < b → lastPass text.toList (passes language) i = some .keyword :=
    fun i hi hi' => (lastPass_eq_of_wordRun hw ⟨hi, hi'⟩ ⟨hle, hlt'⟩).trans hkeyword
  have hstart : a = start := by
    by_contra hne
    exact hbefore (start - 1) (by omega) (hword _ (by omega) (by omega))
  have hstop : stop = b := by
    rcases Nat.lt_trichotomy stop b with hless | heq | hmore
    · exact absurd (hword stop (by omega) hless) hbehind
    · exact heq
    · obtain ⟨a', b', word', hw', -, hle', hlt'⟩ :=
        exists_wordRun_of_lastPass (hrun b ⟨hlt'.le, hmore⟩)
      obtain ⟨-, hsame⟩ := hw.eq_of_touch hw' (by omega) hle'
      omega
  subst hstart hstop
  exact ⟨word, hw, hmem, hkeyword⟩

/-- A reserved word without strings and comments on it is a keyword span. -/
lemma mem_highlight_of_wordRun {text : String} {language : Language} {start stop : Nat}
    {word : List Char} (hw : WordRun text.toList start stop word)
    (hmem : String.ofList word ∈ language.keywords)
    (hfree : ∀ p ∈ stringsAndComments, ∀ r ∈ p.occurrences text.toList,
      ∀ i, start ≤ i → i < stop → ¬ r.Covers i) :
    ⟨start, stop, .keyword⟩ ∈ highlight text language := by
  -- a keyword next to the word, or over one of its edges, would be the same word
  have hsame : ∀ i, start ≤ i + 1 → i ≤ stop →
      lastPass text.toList (passes language) i = some .keyword → start ≤ i ∧ i < stop := by
    intro i hi hi' hkeyword
    obtain ⟨a, b, word', hw', -, hle, hlt⟩ := exists_wordRun_of_lastPass hkeyword
    obtain ⟨rfl, rfl⟩ := hw.eq_of_touch hw' (by omega) (by omega)
    exact ⟨hle, hlt⟩
  refine mem_highlight_iff.2 ⟨hw.start_lt_stop, ?_, ?_, ?_⟩
  · rintro i ⟨hi, hi'⟩
    exact (lastPass_eq_keyword_of_wordRun hw hmem ⟨hi, hi'⟩).2 fun p hp r hr =>
      hfree p hp r hr i hi hi'
  · intro i hi hkeyword
    have hin := hsame i hi.ge (by have hlt := hw.start_lt_stop; omega) hkeyword
    omega
  · intro hkeyword
    have hin := hsame stop (by have hlt := hw.start_lt_stop; omega) (le_refl _) hkeyword
    omega

/-- **The keyword spans.** A stretch of a text is a keyword span if and only if it is a maximal run
of word characters, its word is in the table of the language, and no string or comment has a match
on any of its bytes. Every keyword span is a whole match of the keyword pattern, and which matches
that pattern has depends on the words of the table but not on their order. -/
theorem highlight_keywordSpans (text : String) (language : Language) :
    (∀ start stop, ⟨start, stop, .keyword⟩ ∈ highlight text language ↔
      ∃ word, WordRun text.toList start stop word ∧ String.ofList word ∈ language.keywords ∧
        ∀ p ∈ stringsAndComments, ∀ r ∈ p.occurrences text.toList,
          ∀ i, start ≤ i → i < stop → ¬ r.Covers i) ∧
    (∀ start stop, ⟨start, stop, .keyword⟩ ∈ highlight text language →
      ⟨start, stop⟩ ∈ (keywords language.keywords).occurrences text.toList) ∧
    ∀ table : List String, (∀ w, w ∈ table ↔ w ∈ language.keywords) →
      (keywords table).occurrences text.toList
        = (keywords language.keywords).occurrences text.toList := by
  have htable := isWordTable_keywords language
  refine ⟨fun start stop => ⟨fun h => ?_, ?_⟩, fun start stop h => ?_, fun table hsame => ?_⟩
  · obtain ⟨word, hw, hmem, hkeyword⟩ := exists_wordRun_of_mem_highlight h
    refine ⟨word, hw, hmem, fun p hp r hr i hi hi' => ?_⟩
    have hi_keyword :=
      (lastPass_eq_of_wordRun hw ⟨hi, hi'⟩ ⟨le_refl _, hw.start_lt_stop⟩).trans hkeyword
    exact (lastPass_eq_keyword_of_wordRun hw hmem ⟨hi, hi'⟩).1 hi_keyword p hp r hr
  · rintro ⟨word, hw, hmem, hfree⟩
    exact mem_highlight_of_wordRun hw hmem hfree
  · obtain ⟨word, hw, hmem, -⟩ := exists_wordRun_of_mem_highlight h
    exact (mem_occurrences_keywords_iff htable).2 ⟨word, hw, hmem⟩
  · exact occurrences_keywords_congr htable hsame text.toList

/-- A word of the table may start with another one, and a string hides its words. -/
example : highlight "double do1 do \"if\"" .java
    = [⟨0, 6, .keyword⟩, ⟨11, 13, .keyword⟩, ⟨14, 18, .string⟩] := by
  decide +kernel

end Folio
