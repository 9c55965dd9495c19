import Mathlib.Data.List.TakeWhile
import Mathlib.Tactic
import Folio.Proofs.Highlight.Composition
import Folio.Proofs.Highlight.KeywordSpans
import Folio.Proofs.Highlight.Returns

/-!
Highlighting of a text whose returns are merged. Keywords and numbers ignore the ends of lines, and
strings and comments start with a mark and take a return behind it like any other character. So
every character that stays has the same category in both texts (`highlight_mergeReturns`).
-/

namespace Folio

open Text

namespace Highlight

variable {pre post rest : List Char} {c : Char} {language : Language}

/-! ### Keywords and numbers -/

lemma not_isLineEnd_of_isWord (h : isWord c = true) : ¬ IsLineEnd c := by
  have hreturn : isWord '\r' = false := by decide +kernel
  rintro (rfl | rfl)
  · exact Bool.false_ne_true (isWord_newline.symm.trans h)
  · exact Bool.false_ne_true (hreturn.symm.trans h)

lemma mergesReturns_keywords (language : Language) :
    (keywords language.keywords).MergesReturns := by
  have htable := isWordTable_keywords language
  refine Pattern.IgnoresReturns.mergesReturns ?_ fun h => ?_
  · refine ⟨trivial, Pattern.anyOf_induction trivial (fun _ _ => .intro) fun p hp => ?_, trivial,
      trivial⟩
    obtain ⟨w, hw, rfl⟩ := List.mem_map.1 hp
    exact fun c hc => not_isLineEnd_of_isWord ((htable w hw).2 c hc)
  · obtain ⟨hmem, -⟩ := matches_keywords_iff.1 h
    obtain ⟨hne, hword⟩ := htable _ hmem
    rw [String.toList_ofList] at hne hword
    obtain ⟨x, m, rfl⟩ := List.exists_cons_of_ne_nil hne
    exact ⟨x, m, rfl, not_isLineEnd_of_isWord (hword x List.mem_cons_self)⟩

lemma mergesReturns_number : number.MergesReturns := by
  refine Pattern.IgnoresReturns.mergesReturns ?_ fun h => ?_
  · exact ⟨trivial, ⟨rfl, rfl⟩, ⟨rfl, rfl⟩, ⟨⟨rfl, rfl⟩, trivial⟩, ⟨rfl, rfl⟩, trivial, trivial⟩
  · obtain ⟨m₁, m₂, rfl, ⟨rfl, -⟩, digit, m₃, rfl, ⟨x, rfl, hx⟩, -⟩ := h
    refine ⟨x, m₃, rfl, ?_⟩
    rintro (rfl | rfl)
    · exact Bool.false_ne_true hx
    · exact Bool.false_ne_true hx

/-! ### Runs up to the end of a line -/

/-- What follows a run that takes returns does not start with one, so that its start stays. -/
lemma mergeReturns_dropWhile (inClass : Char → Bool) (hreturn : inClass '\r' = true)
    (rest : List Char) :
    rest.dropWhile inClass = [] ∨ ∃ x tail, rest.dropWhile inClass = x :: tail ∧
      inClass x = false ∧ mergeReturns (rest.dropWhile inClass) = x :: mergeReturns tail := by
  cases htail : rest.dropWhile inClass with
  | nil => exact .inl rfl
  | cons x tail =>
      have hx : inClass x = false := by
        have hhead := List.head?_dropWhile_not inClass rest
        rw [htail] at hhead
        simpa using hhead
      refine .inr ⟨x, tail, rfl, hx, mergeReturns_of_kept fun hkept => ?_⟩
      rw [hkept.1, hreturn] at hx
      exact Bool.false_ne_true hx.symm

/-- A run that takes returns stops at the same place in the merged text. -/
lemma span_mergeReturns (inClass : Char → Bool) (hreturn : inClass '\r' = true)
    (rest : List Char) :
    (mergeReturns rest).takeWhile inClass
        = keptBefore (rest.dropWhile inClass) (rest.takeWhile inClass) ∧
      (mergeReturns rest).dropWhile inClass = mergeReturns (rest.dropWhile inClass) := by
  have hrest : mergeReturns rest
      = keptBefore (rest.dropWhile inClass) (rest.takeWhile inClass)
        ++ mergeReturns (rest.dropWhile inClass) := by
    rw [← mergeReturns_append_eq, List.takeWhile_append_dropWhile]
  have hrun : ∀ c ∈ keptBefore (rest.dropWhile inClass) (rest.takeWhile inClass),
      inClass c = true := fun c hc => List.mem_takeWhile_imp (mem_of_mem_keptBefore hc)
  rw [hrest, List.takeWhile_append_of_pos hrun, List.dropWhile_append_of_pos hrun]
  rcases mergeReturns_dropWhile inClass hreturn rest with hnil | ⟨x, tail, -, hx, htail⟩
  · rw [hnil, mergeReturns, List.takeWhile_nil, List.append_nil]
    exact ⟨rfl, rfl⟩
  · have hstop : ¬ inClass x = true := fun h => Bool.false_ne_true (hx.symm.trans h)
    rw [htail, List.takeWhile_cons_of_neg hstop, List.dropWhile_cons_of_neg hstop, List.append_nil]
    exact ⟨rfl, rfl⟩

/-- A pattern that prefers a mark, a run that takes returns and what closes it, and does so in the
merged text too, ends at the same place there. -/
lemma rel_end?_of_run {p : Pattern} {mark closing : List Char} (inClass : Char → Bool)
    (hreturn : inClass '\r' = true) (hmark : ∀ c ∈ mark, ¬ IsLineEnd c)
    (hclosing : ∀ c ∈ closing, ¬ IsLineEnd c) (htail : rest.dropWhile inClass = closing ++ post)
    (hend : ∀ pre, p.end? (.between pre (mark ++ rest))
      = some (.between (pre ++ (mark ++ (rest.takeWhile inClass ++ closing))) post))
    (hend' : ∀ pre, p.end? (.between pre (mark ++ mergeReturns rest))
      = some (.between (pre ++ (mark ++ ((mergeReturns rest).takeWhile inClass ++ closing)))
          (mergeReturns post))) :
    Option.Rel (Cursor.Merges (pre ++ (mark ++ rest))) (p.end? (.between pre (mark ++ rest)))
      (p.end? (.between (keptBefore (mark ++ rest) pre) (mark ++ mergeReturns rest))) := by
  obtain ⟨hrun, -⟩ := span_mergeReturns inClass hreturn rest
  have hrest : rest.takeWhile inClass ++ (closing ++ post) = rest := by
    rw [← htail, List.takeWhile_append_dropWhile]
  have hmid : mark ++ rest = mark ++ (rest.takeWhile inClass ++ closing) ++ post := by
    rw [List.append_assoc mark, List.append_assoc _ closing, hrest]
  have hkept : keptBefore post (pre ++ (mark ++ (rest.takeWhile inClass ++ closing)))
      = keptBefore (mark ++ rest) pre
        ++ (mark ++ (keptBefore (closing ++ post) (rest.takeWhile inClass) ++ closing)) := by
    rw [keptBefore_append post pre, keptBefore_append post mark, keptBefore_append post _ closing,
      keptBefore_eq_self hmark, keptBefore_eq_self hclosing, ← hmid]
  have hsource := hend pre
  have htarget := hend' (keptBefore (mark ++ rest) pre)
  rw [hrun, htail, ← hkept] at htarget
  rw [hmid] at hsource htarget ⊢
  exact Pattern.rel_end?_of_end? hsource htarget

lemma mergesReturns_lineComment : lineComment.MergesReturns := by
  have hmark : ∀ c ∈ ['/', '/'], ¬ IsLineEnd c := by simp [IsLineEnd]
  refine Pattern.MergesReturns.of_mark (by simp) hmark ?_ fun pre rest => ?_
  · rintro pre mid post ⟨m₁, m₂, rfl, rfl, -⟩
    exact ⟨m₂, rfl⟩
  · have hend : ∀ pre rest, lineComment.end? (.between pre (['/', '/'] ++ rest))
        = some (.between (pre ++ (['/', '/'] ++ (rest.takeWhile (· != '\n') ++ [])))
            (rest.dropWhile (· != '\n'))) := by
      intro pre rest
      rw [end?_lineComment, List.append_nil, List.append_assoc]
    obtain ⟨-, htail⟩ := span_mergeReturns (· != '\n') rfl rest
    refine rel_end?_of_run (· != '\n') rfl hmark (by simp) rfl (fun pre => hend pre rest) ?_
    intro pre
    rw [hend, htail]

/-- A string is closed in the merged text by what closes it in the text. -/
lemma exists_closesString {quote : Char} (hquote : ¬ IsLineEnd quote)
    (hreturn : inString quote '\r' = true) (rest : List Char) :
    ∃ closing post, (∀ c ∈ closing, ¬ IsLineEnd c) ∧
      rest.dropWhile (inString quote) = closing ++ post ∧ ClosesString quote closing post ∧
      (mergeReturns rest).dropWhile (inString quote) = closing ++ mergeReturns post ∧
      ClosesString quote closing (mergeReturns post) := by
  obtain ⟨-, hspan⟩ := span_mergeReturns (inString quote) hreturn rest
  rw [hspan]
  rcases mergeReturns_dropWhile (inString quote) hreturn rest with
    htail | ⟨x, tail, htail, hx, hmerged⟩
  · rw [htail]
    exact ⟨[], [], by simp, rfl, .inr ⟨rfl, by simp⟩, rfl, .inr ⟨rfl, by simp [mergeReturns]⟩⟩
  · rw [hmerged, htail]
    by_cases hclosed : x = quote
    · subst hclosed
      exact ⟨[x], tail, by simpa using hquote, rfl, .inl rfl, rfl, .inl rfl⟩
    · obtain rfl : x = '\n' := by simpa [inString, hclosed] using hx
      have hfeed : mergeReturns ('\n' :: tail) = '\n' :: mergeReturns tail :=
        mergeReturns_of_kept (by simp [Kept])
      rw [← hfeed]
      refine ⟨[], '\n' :: tail, by simp, rfl, .inr ⟨rfl, ?_⟩, rfl, .inr ⟨rfl, ?_⟩⟩
      · simpa using hclosed
      · rw [hfeed]
        simpa using hclosed

lemma mergesReturns_quotedString {quote : Char} (hquote : ¬ IsLineEnd quote) :
    (quotedString quote).MergesReturns := by
  have hmark : ∀ c ∈ [quote], ¬ IsLineEnd c := by simpa using hquote
  have hreturn : inString quote '\r' = true := by
    have hne : '\r' ≠ quote := fun heq => hquote (.inr heq.symm)
    simpa [inString] using hne
  refine Pattern.MergesReturns.of_mark (List.cons_ne_nil quote []) hmark ?_ fun pre rest => ?_
  · rintro pre mid post ⟨m₁, m₂, rfl, ⟨x, rfl, hx⟩, -⟩
    obtain rfl := beq_iff_eq.1 hx
    exact ⟨m₂, rfl⟩
  · obtain ⟨closing, post, hkept, htail, hcloses, htail', hcloses'⟩ :=
      exists_closesString hquote hreturn rest
    exact rel_end?_of_run (inString quote) hreturn hmark hkept htail
      (end?_quotedString hcloses htail) (end?_quotedString hcloses' htail')

/-! ### Comments between marks -/

/-- A comment runs to its closing mark or the end of the text. Neither of them is changed. -/
lemma rel_end?_commentBody (pre rest : List Char) :
    Option.Rel (Cursor.Merges (pre ++ rest)) (commentBody.end? (.between pre rest))
      (commentBody.end? (.between (keptBefore rest pre) (mergeReturns rest))) := by
  have hmark : ∀ c ∈ ['*', '/'], ¬ IsLineEnd c := by simp [IsLineEnd]
  induction rest generalizing pre with
  | nil => exact .some (Cursor.merges_between pre [])
  | cons x rest ih =>
      have hnext := ih (pre ++ [x])
      rw [← List.append_cons] at hnext
      by_cases hx : Kept x rest
      · by_cases hclosed : ['*', '/'] <+: x :: rest
        · obtain ⟨post, hpost⟩ := hclosed
          rw [← hpost]
          refine Pattern.rel_end?_of_end? (end?_commentBody_of_mark pre post) ?_
          rw [mergeReturns_append_eq, keptBefore_append, keptBefore_eq_self hmark]
          exact end?_commentBody_of_mark _ _
        · have hclosed' : ¬ ['*', '/'] <+: x :: mergeReturns rest := by
            rwa [← mergeReturns_of_kept hx, prefix_mergeReturns_iff hmark]
          rw [keptBefore_concat_of_kept hx] at hnext
          rw [mergeReturns_of_kept hx]
          rwa [end?_commentBody_cons hclosed, end?_commentBody_cons hclosed']
      · -- the comment in the merged text is already behind the return
        have hclosed : ¬ ['*', '/'] <+: x :: rest := by
          obtain ⟨rfl, -⟩ := not_not.1 hx
          simp
        rw [keptBefore_concat_of_not_kept hx] at hnext
        rwa [mergeReturns_of_not_kept hx, end?_commentBody_cons hclosed]

lemma mergesReturns_blockComment : blockComment.MergesReturns := by
  have hmark : ∀ c ∈ ['/', '*'], ¬ IsLineEnd c := by simp [IsLineEnd]
  refine Pattern.MergesReturns.of_mark (by simp) hmark ?_ fun pre rest => ?_
  · rintro pre mid post ⟨m₁, m₂, rfl, rfl, -⟩
    exact ⟨m₂, rfl⟩
  · have hbody := rel_end?_commentBody (pre ++ ['/', '*']) rest
    rw [keptBefore_append, keptBefore_eq_self hmark, List.append_assoc] at hbody
    rwa [end?_blockComment, end?_blockComment]

/-! ### Passes over the merged text -/

/-- No pattern of the highlighter tells a return with its line feed from the line feed alone. -/
theorem mergesReturns_of_mem_passes {pass : Category × Pattern} (h : pass ∈ passes language) :
    pass.2.MergesReturns := by
  simp only [passes, List.mem_cons, List.not_mem_nil, or_false] at h
  rcases h with rfl | rfl | rfl | rfl | rfl | rfl
  · exact mergesReturns_keywords language
  · exact mergesReturns_quotedString (by simp [IsLineEnd])
  · exact mergesReturns_quotedString (by simp [IsLineEnd])
  · exact mergesReturns_lineComment
  · exact mergesReturns_blockComment
  · exact mergesReturns_number

/-- If related members of two lists have a property or not together, one list has a member with it
if the other one has. -/
lemma exists_mem_iff_of_forall₂ {α β : Type} {R : α → β → Prop} {P : α → Prop} {Q : β → Prop}
    {as : List α} {bs : List β} (h : List.Forall₂ R as bs) (hPQ : ∀ a b, R a b → (P a ↔ Q b)) :
    (∃ a ∈ as, P a) ↔ ∃ b ∈ bs, Q b := by
  induction h with
  | nil => simp
  | @cons a b as bs hab _ ih => simp [hPQ a b hab, ih]

/-- A pass has a match on a character that stays if it has one there in the merged text. -/
lemma covered_mergeReturns {pass : Category × Pattern} (hpass : pass ∈ passes language)
    (hc : Kept c post) {i : Nat} (hi : i < c.utf8Size) :
    covered (pre ++ c :: post) pass (byteCount pre + i)
      = covered (mergeReturns (pre ++ c :: post)) pass
          (byteCount (keptBefore (c :: post) pre) + i) := by
  have hfound := (mergesReturns_of_mem_passes hpass).forall₂_occurrences (pre ++ c :: post)
  rw [Bool.eq_iff_iff, covered_iff, covered_iff]
  exact exists_mem_iff_of_forall₂ hfound fun _ _ hmerges => hmerges.covers_iff hc hi

end Highlight

open Highlight

/-- **Highlighting does not depend on the ends of lines.** Let each carriage return with a line feed
behind it be replaced by the line feed alone. All other characters of a text, among them any other
carriage returns, stay: such a character stands in the merged text before the same characters as in
the text, and every byte of it has the same category there, or none in both. -/
theorem highlight_mergeReturns (text : String) (language : Language) {pre post : List Char}
    {c : Char} (htext : text.toList = pre ++ c :: post)
    (hc : ¬ (c = '\r' ∧ post.head? = some '\n')) :
    mergeReturns text.toList = keptBefore (c :: post) pre ++ c :: mergeReturns post ∧
    ∀ i < c.utf8Size, ∀ category,
      (∃ s ∈ highlight text language, s.Covers (byteCount pre + i) ∧ s.category = category) ↔
        ∃ s ∈ highlight (String.ofList (mergeReturns text.toList)) language,
          s.Covers (byteCount (keptBefore (c :: post) pre) + i) ∧ s.category = category := by
  have hmerged : mergeReturns (pre ++ c :: post)
      = keptBefore (c :: post) pre ++ c :: mergeReturns post := by
    rw [mergeReturns_append_eq, mergeReturns_of_kept hc]
  refine ⟨htext ▸ hmerged, fun i hi category => ?_⟩
  have hlast : lastPass text.toList (passes language) (byteCount pre + i)
      = lastPass (mergeReturns text.toList) (passes language)
          (byteCount (keptBefore (c :: post) pre) + i) := by
    rw [htext]
    exact lastPass_congr fun pass hpass => covered_mergeReturns hpass hc hi
  rw [(describes_highlight text language).tags, hlast,
    (describes_highlight (String.ofList (mergeReturns text.toList)) language).tags,
    String.toList_ofList]

/-- A return alone in an open string, right before the end of a line. Other ends of lines stand
behind a number with a point and in an open comment. -/
theorem highlight_mergeReturns_of_lone_return :
    let text := "5.\r\n'é\r\r\nif /*\r\n"
    let pre := "5.\r\n'é".toList
    let post := "\r\nif /*\r\n".toList
    (text.toList = pre ++ '\r' :: post ∧ ¬ ('\r' = '\r' ∧ post.head? = some '\n')) ∧
    mergeReturns text.toList = "5.\n'é".toList ++ '\r' :: "\nif /*\n".toList ∧
    ∀ category,
      (∃ s ∈ highlight text .java, s.Covers (byteCount pre) ∧ s.category = category) ↔
        ∃ s ∈ highlight (String.ofList (mergeReturns text.toList)) .java,
          s.Covers (byteCount "5.\n'é".toList) ∧ s.category = category := by
  intro text pre post
  have htext : text.toList = pre ++ '\r' :: post := by decide +kernel
  have hlone : ¬ ('\r' = '\r' ∧ post.head? = some '\n') := by decide +kernel
  have hpre : keptBefore ('\r' :: post) pre = "5.\n'é".toList := by decide +kernel
  have hpost : mergeReturns post = "\nif /*\n".toList := by decide +kernel
  obtain ⟨hmerged, htags⟩ := highlight_mergeReturns text .java htext hlone
  rw [hpre] at hmerged htags
  rw [hpost] at hmerged
  exact ⟨⟨htext, hlone⟩, hmerged, fun category => htags 0 (by decide) category⟩

end Folio
