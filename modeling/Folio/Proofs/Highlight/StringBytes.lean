import Mathlib.Tactic
import Mathlib.Data.List.DropRight
import Folio.Proofs.Highlight.KeywordSpans

/-!
The bytes of strings in highlighted text.

* `Highlight.InQuotes`: a byte of a quote, or with an odd number of quotes before it on its line.
* `Highlight.Outside`: between two matches of a string pattern the quotes on the line so far come in
  pairs, unless the line ends there. Hence `Highlight.covers_quotedString_iff`: the matches are on
  the bytes in quotes.
-/

namespace Folio

open Text

namespace Highlight

/-- What comes after the last line feed of a text. -/
def lastLine (text : List Char) : List Char := text.rtakeWhile (· != '\n')

/-- The byte is in quotes of one kind: it is not that of a line feed, and it is that of a quote or
has an odd number of quotes before it on its line. -/
def InQuotes (quote : Char) (text : List Char) (i : Nat) : Prop :=
  ∃ pre c post, IsByteOf text i pre c post ∧ c ≠ '\n' ∧
    (c = quote ∨ Odd ((lastLine pre).count quote))

variable {pre mid post rest text a b : List Char} {quote c : Char} {i : Nat}

/-! ### Lines -/

@[simp] lemma lastLine_concat_newline (text : List Char) : lastLine (text ++ ['\n']) = [] :=
  List.rtakeWhile_concat_neg _ _ _ (by simp)

lemma lastLine_append (h : '\n' ∉ rest) (text : List Char) :
    lastLine (text ++ rest) = lastLine text ++ rest := by
  induction rest using List.reverseRecOn with
  | nil => simp
  | append_singleton rest c ih =>
      obtain ⟨hrest, hc⟩ := not_or.1 (List.mem_append.not.1 h)
      have hc : (c != '\n') = true := bne_iff_ne.2 fun heq => hc (List.mem_singleton.2 heq.symm)
      calc lastLine (text ++ (rest ++ [c]))
          = (text ++ rest ++ [c]).rtakeWhile (· != '\n') := by rw [List.append_assoc]; rfl
        _ = lastLine (text ++ rest) ++ [c] :=
          List.rtakeWhile_concat_pos (fun x => x != '\n') (text ++ rest) c hc
        _ = lastLine text ++ (rest ++ [c]) := by rw [ih hrest, List.append_assoc]

lemma count_lastLine_append (h : '\n' ∉ rest) (quote : Char) (text : List Char) :
    (lastLine (text ++ rest)).count quote = (lastLine text).count quote + rest.count quote := by
  rw [lastLine_append h, List.count_append]

/-! ### The sweep for strings -/

/-- Between two parts of a text, a string that started before has stopped: the quotes on the line so
far come in pairs, or the line ends. -/
def Outside (quote : Char) (pre rest : List Char) : Prop :=
  Even ((lastLine pre).count quote) ∨ ∀ x ∈ rest.head?, x = '\n'

/-- Unless a line ends at a place, the quotes come in pairs. -/
lemma Outside.even (h : Outside quote pre (c :: rest)) (hc : c ≠ '\n') :
    Even ((lastLine pre).count quote) :=
  h.resolve_right fun hline => hc (hline c rfl)

/-- A character that is not a quote leaves no string open. -/
lemma Outside.skip (h : Outside quote pre (c :: rest)) (hc : c ≠ quote) :
    Outside quote (pre ++ [c]) rest := by
  by_cases hline : c = '\n'
  · subst hline
    exact .inl (by simp)
  · refine .inl ?_
    have hzero : [c].count quote = 0 := List.count_eq_zero.2 (by simpa using Ne.symm hc)
    rw [count_lastLine_append (by simpa using Ne.symm hline), hzero]
    exact h.even hline

/-- Nor does a whole string. -/
lemma Outside.hit (hquote : quote ≠ '\n') (h : Outside quote pre (mid ++ post))
    (hmatches : (quotedString quote).Matches pre mid post) : Outside quote (pre ++ mid) post := by
  have hline := newline_notMem_of_matches hquote hmatches
  obtain ⟨body, closing, rfl, hbody, rfl | ⟨rfl, hend⟩⟩ := matches_quotedString_iff.1 hmatches
  · have hzero : body.count quote = 0 := List.count_eq_zero.2 fun hmem => (hbody _ hmem).1 rfl
    refine .inl ?_
    rw [count_lastLine_append hline, List.count_cons_self, List.count_append, hzero,
      List.count_singleton_self]
    exact (h.even hquote).add even_two
  · exact .inr hend

/-- Within a string, every character is in quotes. -/
lemma inQuotes_of_matches (hquote : quote ≠ '\n') (heven : Even ((lastLine pre).count quote))
    (h : (quotedString quote).Matches pre (a ++ c :: b) post) :
    c ≠ '\n' ∧ (c = quote ∨ Odd ((lastLine (pre ++ a)).count quote)) := by
  have hline := newline_notMem_of_matches hquote h
  refine ⟨?_, (eq_quote_or_count_eq_one h).imp_right fun hone => ?_⟩
  · rintro rfl
    exact hline (List.mem_append_right a List.mem_cons_self)
  · rw [count_lastLine_append fun hmem => hline (List.mem_append_left _ hmem), hone]
    exact heven.add_one

/-- **A sweep for strings finds the bytes in quotes.** -/
theorem covers_iff_of_sweep (hquote : quote ≠ '\n') {found : List ByteRange}
    (h : (quotedString quote).Sweep pre rest found) (hout : Outside quote pre rest)
    (hi : IsByteOf (pre ++ rest) i (pre ++ a) c b) :
    (∃ r ∈ found, r.Covers i) ↔
      c ≠ '\n' ∧ (c = quote ∨ Odd ((lastLine (pre ++ a)).count quote)) := by
  induction h generalizing a with
  | stop pre =>
      obtain ⟨htext, -⟩ := hi
      simp at htext
  | @skip pre rest x found hmiss hnext ih =>
      have hx : x ≠ quote := by
        rintro rfl
        exact not_missesAt_quotedString x pre rest hmiss
      cases a with
      | nil =>
          -- the byte is passed over, and is not in quotes
          obtain ⟨htext, -, hlt⟩ := hi
          rw [List.append_nil] at htext hlt ⊢
          obtain ⟨rfl, -⟩ := List.cons.inj (List.append_cancel_left htext)
          constructor
          · rintro ⟨r, hr, hle, -⟩
            have hstart := hnext.le_start hr
            simp only [byteCount_append, byteCount_cons, byteCount_nil] at hstart
            omega
          · rintro ⟨hline, hcases⟩
            exact absurd (hout.even hline) (Nat.not_even_iff_odd.2 (hcases.resolve_left hx))
      | cons y a =>
          obtain rfl : y = x := by
            have htext := List.append_cancel_left (hi.1.trans (List.append_assoc pre (y :: a) _))
            exact (List.cons.inj htext).1.symm
          rw [List.append_cons, List.append_cons pre y a] at hi
          rw [List.append_cons]
          exact ih (hout.skip hx) hi
  | @hit pre mid post found hne hend hnext ih =>
      have hmatches := Pattern.matches_of_end? hend
      by_cases hlt : i < byteCount (pre ++ mid)
      · have hstart : byteCount pre ≤ i := by
          have hle := hi.2.1
          rw [byteCount_append] at hle
          omega
        obtain ⟨m₁, m₂, hplace, rfl⟩ := hi.exists_split rfl hstart hlt
        obtain rfl := List.append_cancel_left hplace
        have heven : Even ((lastLine pre).count quote) := by
          obtain ⟨body, closing, hmid, -⟩ := matches_quotedString_iff.1 hmatches
          rw [hmid] at hout
          exact hout.even hquote
        exact iff_of_true ⟨_, List.mem_cons_self, hstart, hlt⟩
          (inQuotes_of_matches hquote heven hmatches)
      · rw [← List.append_assoc] at hi
        obtain ⟨m, hplace, -⟩ := hi.exists_append_of_le rfl (not_lt.1 hlt)
        have hfirst : ¬ ByteRange.Covers ⟨byteCount pre, byteCount (pre ++ mid)⟩ i :=
          fun hcovers => hlt hcovers.2
        rw [hplace] at hi ⊢
        rw [← ih (hout.hit hquote hmatches) hi]
        simp only [List.exists_mem_cons_iff, hfirst, false_or]

/-- **A pattern of strings has matches on the bytes in quotes**, in a whole text. -/
theorem covers_quotedString_iff (hquote : quote ≠ '\n') :
    (quotedString quote).Covers text i ↔ InQuotes quote text i := by
  have hsweep := Pattern.sweep_occurrences (quotedString quote) text
  have hout : Outside quote [] text := .inl (by simp [lastLine])
  constructor
  · intro hcovers
    obtain ⟨pre, c, post, hi⟩ := exists_isByteOf hcovers.lt_byteCount
    exact ⟨pre, c, post, hi, (covers_iff_of_sweep hquote hsweep hout hi).1 hcovers⟩
  · rintro ⟨pre, c, post, hi, hcases⟩
    exact (covers_iff_of_sweep hquote hsweep hout hi).2 hcases

/-- The bytes of a line feed are in no quotes. -/
lemma not_inQuotes_newline (hi : IsByteOf text i pre '\n' post) : ¬ InQuotes quote text i := by
  rintro ⟨pre', c, post', hi', hline, -⟩
  obtain ⟨-, rfl, -⟩ := hi.unique hi'
  exact hline rfl

lemma not_covers_number (hi : IsByteOf text i pre c post) (hdigit : c.isDigit = false)
    (hpoint : c ≠ '.') : ¬ number.Covers text i := by
  rintro ⟨r, hr, hcovers⟩
  obtain ⟨a, mid, b, htext, -, hend, rfl⟩ := Pattern.exists_of_mem_occurrences hr
  obtain ⟨-, -, hchars⟩ := matches_number (Pattern.matches_of_end? hend)
  rcases hchars c (hi.mem htext hcovers.1 hcovers.2) with hyes | hyes
  · exact Bool.false_ne_true (hdigit.symm.trans hyes)
  · exact hpoint hyes

end Highlight

open Highlight

/-- **The bytes of strings.** The pattern of a kind of quotes has a match on a byte if that is in
such quotes. A byte is that of a string if it is in quotes of either kind, and no comment or number
has a match on it. So every quote is part of a string or a comment, and no string goes over a line
feed. -/
theorem highlight_stringBytes (text : String) (language : Language) :
    (∀ quote ∈ ['"', '\''], ∀ i,
      (quotedString quote).Covers text.toList i ↔ InQuotes quote text.toList i) ∧
    (∀ i, (∃ s ∈ highlight text language, s.Covers i ∧ s.category = .string) ↔
      (∃ quote ∈ ['"', '\''], InQuotes quote text.toList i) ∧
        ∀ p ∈ [lineComment, blockComment, number], ¬ p.Covers text.toList i) ∧
    (∀ quote ∈ ['"', '\''], ∀ i pre post, IsByteOf text.toList i pre quote post →
      ∃ s ∈ highlight text language, s.Covers i ∧
        (s.category = .string ∨ s.category = .comment)) ∧
    (∀ s ∈ highlight text language, s.category = .string →
      ∃ part, s.text? text = some (String.ofList part) ∧ '\n' ∉ part) := by
  have hdescribes := describes_highlight text language
  have hquotes : ∀ quote ∈ ['"', '\''], ∀ i,
      (quotedString quote).Covers text.toList i ↔ InQuotes quote text.toList i := by
    intro quote hquote i
    have hne : quote ≠ '\n' := by
      rintro rfl
      simp at hquote
    exact covers_quotedString_iff hne
  have hstring : ∀ i, lastPass text.toList (passes language) i = some .string ↔
      (∃ quote ∈ ['"', '\''], InQuotes quote text.toList i) ∧
        ∀ p ∈ [lineComment, blockComment, number], ¬ p.Covers text.toList i := by
    intro i
    rw [lastPass_eq_string_iff, hquotes '"' (by simp), hquotes '\'' (by simp)]
    simp
  refine ⟨hquotes, fun i => (hdescribes.tags i .string).trans (hstring i), ?_, ?_⟩
  · intro quote hquote i pre post hi
    have hquoted : ∃ quote ∈ ['"', '\''], InQuotes quote text.toList i := by
      refine ⟨quote, hquote, pre, quote, post, hi, ?_, .inl rfl⟩
      rintro rfl
      simp at hquote
    have hnumber : ¬ number.Covers text.toList i := by
      simp only [List.mem_cons, List.not_mem_nil, or_false] at hquote
      rcases hquote with rfl | rfl <;> exact not_covers_number hi (by decide) (by decide)
    by_cases hcomment : lineComment.Covers text.toList i ∨ blockComment.Covers text.toList i
    · obtain ⟨s, hs, hcovers, hcategory⟩ :=
        (hdescribes.tags i .comment).2 (lastPass_eq_comment_iff.2 ⟨hnumber, hcomment⟩)
      exact ⟨s, hs, hcovers, .inr hcategory⟩
    · obtain ⟨hline, hblock⟩ := not_or.1 hcomment
      obtain ⟨s, hs, hcovers, hcategory⟩ := (hdescribes.tags i .string).2
        ((hstring i).2 ⟨hquoted, by simp [hline, hblock, hnumber]⟩)
      exact ⟨s, hs, hcovers, .inl hcategory⟩
  · intro s hs hcategory
    obtain ⟨hstart, hstop⟩ := isCut_of_describes hdescribes hs
    obtain ⟨pre, part, post, htext, hpre, hpart, hs'⟩ :=
      StyleSpan.exists_text?_eq_some (hdescribes.start_lt_stop s hs).le hstart hstop
    refine ⟨part, hs', fun hline => ?_⟩
    obtain ⟨i, a, b, hi, hle, hlt⟩ := IsByteOf.exists_of_mem htext hline
    have hlast := hdescribes.eq_some hs ⟨hpre ▸ hle, hpart ▸ hlt⟩
    rw [hcategory] at hlast
    obtain ⟨⟨quote, -, hin⟩, -⟩ := (hstring i).1 hlast
    exact not_inQuotes_newline hi hin

/-- The apostrophe opens a string of its own, which runs to the end of the line. -/
example : highlight "\"it's\" x" .plainText = [⟨0, 8, .string⟩] := by decide +kernel

end Folio
