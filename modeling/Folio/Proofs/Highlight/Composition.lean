import Mathlib.Tactic
import Folio.Proofs.Highlight.Comments
import Folio.Proofs.Highlight.SpanList

/-!
Highlighting of two texts with a line feed between them. All patterns but that of comments between
marks are bound to their lines (`Highlight.lineBound_of_mem_passes`), and a closed comment ends at
its mark whatever follows (`Highlight.end?_blockComment_append`). So the spans of the two texts are
those of the first and then those of the second (`highlight_append_newline`).
-/

namespace Folio

open Text

namespace Highlight

/-! ### Patterns bound to their lines -/

lemma newline_notMem_of_mem_keywords (language : Language) :
    ∀ w ∈ language.keywords, '\n' ∉ w.toList := by
  have htable : language.keywords.all (fun w => !w.toList.contains '\n') = true := by
    cases language <;> decide +kernel
  intro w hw
  simpa using List.all_eq_true.1 htable w hw

lemma lineBound_keywords (language : Language) : (keywords language.keywords).LineBound := by
  refine ⟨trivial, Pattern.anyOf_induction trivial (fun _ _ => .intro) fun p hp => ?_, trivial,
    trivial⟩
  obtain ⟨w, hw, rfl⟩ := List.mem_map.1 hp
  exact newline_notMem_of_mem_keywords language w hw

lemma lineBound_quotedString {quote : Char} (h : quote ≠ '\n') :
    (quotedString quote).LineBound := by
  have hquote : ('\n' == quote) = false := beq_eq_false_iff_ne.2 h.symm
  exact ⟨hquote, by simp [Pattern.LineBound], ⟨hquote, trivial⟩, trivial⟩

lemma lineBound_lineComment : lineComment.LineBound :=
  ⟨by simp [Pattern.LineBound], by simp [Pattern.LineBound], trivial⟩

lemma lineBound_number : number.LineBound :=
  ⟨trivial, rfl, rfl, ⟨rfl, trivial⟩, rfl, trivial, trivial⟩

/-- All passes but that of comments between marks stay on a line. -/
lemma lineBound_of_mem_passes {language : Language} {pass : Category × Pattern}
    (h : pass ∈ passes language) : pass.2.LineBound ∨ pass.2 = blockComment := by
  simp only [passes, List.mem_cons, List.not_mem_nil, or_false] at h
  rcases h with rfl | rfl | rfl | rfl | rfl | rfl
  · exact .inl (lineBound_keywords language)
  · exact .inl (lineBound_quotedString (by decide))
  · exact .inl (lineBound_quotedString (by decide))
  · exact .inl lineBound_lineComment
  · exact .inr rfl
  · exact .inl lineBound_number

/-! ### Comments between marks -/

variable {pre mid post rest body tail : List Char}

/-- A comment that ends at its closing mark ends there whatever follows. -/
lemma end?_commentBody_append
    (h : commentBody.end? (.between pre (body ++ (['*', '/'] ++ post)))
      = some (.between (pre ++ (body ++ ['*', '/'])) post)) (tail : List Char) :
    commentBody.end? (.between pre (body ++ (['*', '/'] ++ (post ++ tail))))
      = some (.between (pre ++ (body ++ ['*', '/'])) (post ++ tail)) := by
  induction body generalizing pre with
  | nil => exact end?_commentBody_of_mark pre (post ++ tail)
  | cons x body ih =>
      have hopen : ¬ ['*', '/'] <+: x :: (body ++ (['*', '/'] ++ post)) := by
        -- a mark here would be preferred to the later one
        rintro ⟨post', hpost'⟩
        rw [List.cons_append, ← hpost', end?_commentBody_of_mark, Option.some.injEq] at h
        have hsize := congrArg Cursor.offset h
        have hx := x.utf8Size_pos
        simp only [Cursor.offset_between, byteCount_append, byteCount_cons] at hsize
        omega
      have hopen' : ¬ ['*', '/'] <+: x :: (body ++ (['*', '/'] ++ (post ++ tail))) := by
        intro hmark
        have hlonger : x :: (body ++ (['*', '/'] ++ post))
            <+: x :: (body ++ (['*', '/'] ++ (post ++ tail))) := ⟨tail, by simp⟩
        exact hopen (List.prefix_of_prefix_length_le hmark hlonger (by simp; omega))
      have hpre : pre ++ (x :: body ++ ['*', '/']) = pre ++ [x] ++ (body ++ ['*', '/']) := by simp
      rw [List.cons_append, end?_commentBody_cons hopen, hpre] at h
      rw [List.cons_append, end?_commentBody_cons hopen', hpre]
      exact ih h

/-- A stretch of text that is a comment with both of its marks. -/
def IsClosedComment (mid : List Char) : Prop := ∃ body, mid = ['/', '*'] ++ (body ++ ['*', '/'])

/-- Every comment between marks that is found in the text has its closing mark. -/
def CommentsClosed (text : List Char) : Prop :=
  ∀ r ∈ blockComment.occurrences text, ∃ pre mid post, text = pre ++ (mid ++ post) ∧
    r = ⟨byteCount pre, byteCount (pre ++ mid)⟩ ∧ IsClosedComment mid

/-- **A closed comment** ends at its mark, whatever follows. -/
theorem end?_blockComment_append (hclosed : IsClosedComment mid)
    (hend : blockComment.end? (.between pre (mid ++ post)) = some (.between (pre ++ mid) post))
    (tail : List Char) :
    blockComment.end? (.between pre (mid ++ (post ++ tail)))
      = some (.between (pre ++ mid) (post ++ tail)) := by
  obtain ⟨body, rfl⟩ := hclosed
  rw [List.append_assoc, end?_blockComment, List.append_assoc body, ← List.append_assoc pre] at hend
  rw [List.append_assoc, end?_blockComment, List.append_assoc body, ← List.append_assoc pre]
  exact end?_commentBody_append hend tail

/-- Where no comment starts, none does so before a line feed, which is no part of a mark. -/
lemma missesAt_blockComment_append (h : blockComment.MissesAt pre rest) :
    blockComment.MissesAt pre (rest ++ '\n' :: tail) := by
  rw [missesAt_blockComment_iff] at h ⊢
  rintro ⟨post, hpost⟩
  match rest, hpost with
  | [], hpost => simp at hpost
  | [x], hpost => simp at hpost
  | x :: y :: rest, hpost =>
      obtain ⟨rfl, hrest⟩ := List.cons.inj hpost
      obtain ⟨rfl, -⟩ := List.cons.inj hrest
      exact h ⟨rest, rfl⟩

/-! ### Passes across a line feed -/

variable {a b : List Char} {language : Language} {pass : Category × Pattern} {i : Nat}

/-- In a text with closed comments, a comment that is found stays the same before a line feed. -/
lemma CommentsClosed.isClosedComment (h : CommentsClosed a)
    (hfound : ⟨byteCount pre, byteCount (pre ++ mid)⟩ ∈ blockComment.occurrences a)
    (htext : a = pre ++ (mid ++ post)) : IsClosedComment mid := by
  obtain ⟨pre', mid', post', htext', hrange, hclosed⟩ := h _ hfound
  obtain ⟨hstart, hstop⟩ := ByteRange.mk.inj hrange
  obtain ⟨rfl, hrest⟩ := append_inj_of_byteCount (htext.symm.trans htext') hstart
  rw [byteCount_append, byteCount_append] at hstop
  obtain ⟨rfl, -⟩ := append_inj_of_byteCount hrest (Nat.add_left_cancel hstop)
  exact hclosed

/-- **Every pass finds in two texts with a line feed between them what it finds in each**, if the
comments of the first are closed. -/
theorem occurrences_append_newline_of_mem_passes (h : CommentsClosed a)
    (hpass : pass ∈ passes language) (b : List Char) :
    pass.2.occurrences (a ++ '\n' :: b) = pass.2.occurrences a ++
      (pass.2.occurrences b).map (ByteRange.behind (byteCount (a ++ ['\n']))) := by
  rcases lineBound_of_mem_passes hpass with hbound | hblock
  · exact Pattern.occurrences_append_newline hbound.missesAt_append fun _ _ => hbound.end?_append
  · rw [hblock]
    exact Pattern.occurrences_append_newline missesAt_blockComment_append
      fun htext hfound hend => end?_blockComment_append (h.isClosedComment hfound htext) hend _

/-- Up to the line feed, a pass has its matches in the first text. -/
lemma covered_append_newline_of_lt (h : CommentsClosed a) (hpass : pass ∈ passes language)
    (hi : i < byteCount (a ++ ['\n'])) :
    covered (a ++ '\n' :: b) pass i = covered a pass i := by
  rw [Bool.eq_iff_iff, covered_iff, covered_iff, occurrences_append_newline_of_mem_passes h hpass]
  constructor
  · rintro ⟨r, hr, hcovers⟩
    rcases List.mem_append.1 hr with hr | hr
    · exact ⟨r, hr, hcovers⟩
    · obtain ⟨r, -, rfl⟩ := List.mem_map.1 hr
      have hstart : byteCount (a ++ ['\n']) + r.start ≤ i := hcovers.1
      omega
  · rintro ⟨r, hr, hcovers⟩
    exact ⟨r, List.mem_append_left _ hr, hcovers⟩

/-- Behind the line feed, a pass has its matches in the second text. -/
lemma covered_append_newline_add (h : CommentsClosed a) (hpass : pass ∈ passes language) (i : Nat) :
    covered (a ++ '\n' :: b) pass (byteCount (a ++ ['\n']) + i) = covered b pass i := by
  rw [Bool.eq_iff_iff, covered_iff, covered_iff, occurrences_append_newline_of_mem_passes h hpass]
  constructor
  · rintro ⟨r, hr, hcovers⟩
    rcases List.mem_append.1 hr with hr | hr
    · -- a match in the first text stops at its end
      have hin : covered a pass (byteCount (a ++ ['\n']) + i) = true :=
        covered_iff.2 ⟨r, hr, hcovers⟩
      rw [covered_eq_false_of_le pass (by rw [byteCount_append]; omega)] at hin
      exact absurd hin Bool.false_ne_true
    · obtain ⟨r', hr', rfl⟩ := List.mem_map.1 hr
      obtain ⟨hstart, hstop⟩ := hcovers
      exact ⟨r', hr', Nat.le_of_add_le_add_left hstart, Nat.lt_of_add_lt_add_left hstop⟩
  · rintro ⟨r, hr, hstart, hstop⟩
    exact ⟨r.behind _, List.mem_append_right _ (List.mem_map_of_mem hr),
      Nat.add_le_add_left hstart _, Nat.add_lt_add_left hstop _⟩

end Highlight

/-! ### Spans one behind the other -/

/-- A span when `size` more bytes come before. -/
def StyleSpan.behind (size : Nat) (s : StyleSpan) : StyleSpan :=
  ⟨size + s.start, size + s.stop, s.category⟩

namespace Describes

variable {spans spans' : List StyleSpan} {f g h : Nat → Option Category} {size : Nat}

/-- Spans stop before an offset that, like all later ones, has no category. -/
lemma stop_lt (hf : Describes spans f) (hfree : ∀ i, size ≤ i + 1 → f i = none) {s : StyleSpan}
    (hs : s ∈ spans) : s.stop < size := by
  have hlt := hf.start_lt_stop s hs
  have hle := hf.stop_le (fun i hi => hfree i (Nat.le_add_of_sub_le hi)) hs
  omega

/-- Two lists of spans, the second one behind `size` bytes, of which the first list leaves at least
the last one free. -/
lemma append (hf : Describes spans f) (hg : Describes spans' g)
    (hfree : ∀ i, size ≤ i + 1 → f i = none)
    (hlow : ∀ i < size, h i = f i) (hhigh : ∀ i, h (size + i) = g i) :
    Describes (spans ++ spans'.map (StyleSpan.behind size)) h where
  start_lt_stop s hs := by
    rcases List.mem_append.1 hs with hs | hs
    · exact hf.start_lt_stop s hs
    · obtain ⟨t, ht, rfl⟩ := List.mem_map.1 hs
      exact Nat.add_lt_add_left (hg.start_lt_stop t ht) size
  pairwise := by
    have hshifted : (spans'.map (StyleSpan.behind size)).Pairwise StyleSpan.Precedes :=
      List.pairwise_map.2 (hg.pairwise.imp fun ⟨hle, hne⟩ =>
        ⟨Nat.add_le_add_left hle size, fun htouch => hne (Nat.add_left_cancel htouch)⟩)
    refine List.pairwise_append.2 ⟨hf.pairwise, hshifted, fun s hs t ht => ?_⟩
    obtain ⟨t, -, rfl⟩ := List.mem_map.1 ht
    have hle : s.stop < (t.behind size).start := Nat.lt_add_right t.start (hf.stop_lt hfree hs)
    exact ⟨hle.le, fun htouch => absurd htouch hle.ne⟩
  tags i category := by
    rcases Nat.lt_or_ge i size with hi | hi
    · rw [hlow i hi, ← hf.tags i category]
      constructor
      · rintro ⟨s, hs, hcovers, hcategory⟩
        rcases List.mem_append.1 hs with hs | hs
        · exact ⟨s, hs, hcovers, hcategory⟩
        · obtain ⟨t, -, rfl⟩ := List.mem_map.1 hs
          have hstart : size + t.start ≤ i := hcovers.1
          omega
      · rintro ⟨s, hs, hcovers⟩
        exact ⟨s, List.mem_append_left _ hs, hcovers⟩
    · obtain ⟨j, rfl⟩ := Nat.exists_eq_add_of_le hi
      rw [hhigh j, ← hg.tags j category]
      constructor
      · rintro ⟨s, hs, hcovers, hcategory⟩
        rcases List.mem_append.1 hs with hs | hs
        · have hlt := hcovers.2.trans (hf.stop_lt hfree hs)
          omega
        · obtain ⟨t, ht, rfl⟩ := List.mem_map.1 hs
          exact ⟨t, ht, ⟨Nat.le_of_add_le_add_left hcovers.1,
            Nat.lt_of_add_lt_add_left hcovers.2⟩, hcategory⟩
      · rintro ⟨t, ht, ⟨hstart, hstop⟩, hcategory⟩
        exact ⟨t.behind size, List.mem_append_right _ (List.mem_map_of_mem ht),
          ⟨Nat.add_le_add_left hstart size, Nat.add_lt_add_left hstop size⟩, hcategory⟩

end Describes

open Highlight

/-- **Highlighting goes line by line**, but for comments between marks. If those of a text are all
closed, the spans of the text and another one behind a line feed are the spans of the first and then
those of the second, moved behind the line feed. Quotes, comments to the end of a line, numbers and
words may stand on both sides of the line feed. -/
theorem highlight_append_newline (a b : String) (language : Language)
    (h : CommentsClosed a.toList) :
    highlight (a ++ "\n" ++ b) language = highlight a language ++
      (highlight b language).map (StyleSpan.behind (a.utf8ByteSize + 1)) := by
  have htext : (a ++ "\n" ++ b).toList = a.toList ++ '\n' :: b.toList := by simp
  have hsize : a.utf8ByteSize + 1 = byteCount (a.toList ++ ['\n']) := by
    rw [byteCount_append, byteCount_toList]
    rfl
  refine (describes_highlight (a ++ "\n" ++ b) language).unique ?_
  rw [htext, hsize]
  refine (describes_highlight a language).append (describes_highlight b language)
    (fun i hi => ?_) (fun i hi => ?_) (fun i => ?_)
  · rw [← hsize, ← byteCount_toList] at hi
    exact lastPass_eq_none_of_le _ (Nat.le_of_add_le_add_right hi)
  · exact lastPass_congr fun pass hpass => covered_append_newline_of_lt h hpass hi
  · exact lastPass_congr fun pass hpass => covered_append_newline_add h hpass i

/-- The first text closes its comment. It ends within a string that has a number with a point at its
end, and the second one starts with a digit and has a comment that stays open. -/
theorem highlight_append_newline_of_open_string :
    let a := "/*/ // */ if 'é 1."
    let b := "5' do /*"
    CommentsClosed a.toList ∧
    highlight (a ++ "\n" ++ b) .java = highlight a .java ++
      (highlight b .java).map (StyleSpan.behind (a.utf8ByteSize + 1)) := by
  intro a b
  have hclosed : CommentsClosed a.toList := by
    have hfound : blockComment.occurrences a.toList = [⟨0, 9⟩] := by decide +kernel
    intro r hr
    rw [hfound, List.mem_singleton] at hr
    exact ⟨[], "/*/ // */".toList, " if 'é 1.".toList, by decide +kernel, hr, "/ // ".toList,
      by decide +kernel⟩
  exact ⟨hclosed, highlight_append_newline a b .java hclosed⟩

end Folio
