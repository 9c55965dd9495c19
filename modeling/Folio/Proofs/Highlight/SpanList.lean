import Mathlib.Tactic
import Folio.Highlight.Basic
import Folio.Proofs.Highlight.Occurrences
import Folio.Proofs.Highlight.Paint

/-!
The spans of highlighted text are its maximal runs of bytes with one last pass
(`Highlight.mem_highlight_iff`), where `Highlight.lastPass` is the last pass with a match on a byte.
Within a character that stays the same, since every match ends between two characters.
-/

namespace Folio

open Text

/-- The pattern has a match on a byte of the text. -/
def Pattern.Covers (p : Pattern) (text : List Char) (i : Nat) : Prop :=
  ∃ r ∈ p.occurrences text, r.Covers i

instance (p : Pattern) (text : List Char) (i : Nat) : Decidable (p.Covers text i) :=
  inferInstanceAs (Decidable (∃ r ∈ p.occurrences text, r.Covers i))

lemma Pattern.Covers.lt_byteCount {p : Pattern} {text : List Char} {i : Nat}
    (h : p.Covers text i) : i < byteCount text := by
  obtain ⟨r, hr, -, hi⟩ := h
  obtain ⟨-, ⟨pre, post, rfl, hstop⟩, -⟩ := isCut_of_mem_occurrences hr
  rw [byteCount_append]
  omega

namespace Highlight

/-- Does a pass have a match on a byte of the text? -/
def covered (text : List Char) (pass : Category × Pattern) (i : Nat) : Bool :=
  (pass.2.occurrences text).any fun r => decide (r.Covers i)

/-- The category of the last of some passes with a match on a byte. -/
def lastPass (text : List Char) (passes : List (Category × Pattern)) (i : Nat) : Option Category :=
  (passes.reverse.find? fun pass => covered text pass i).map Prod.fst

variable {text : List Char} {passes : List (Category × Pattern)} {i : Nat}

lemma covered_iff {pass : Category × Pattern} :
    covered text pass i = true ↔ ∃ r ∈ pass.2.occurrences text, r.Covers i := by
  simp [covered]

/-- The last pass of a list, if the passes behind the first one have no match. -/
lemma lastPass_cons (text : List Char) (pass : Category × Pattern)
    (passes : List (Category × Pattern)) (i : Nat) :
    lastPass text (pass :: passes) i
      = (lastPass text passes i).or (if covered text pass i then some pass.1 else none) := by
  rw [lastPass, List.reverse_cons, List.find?_append, Option.map_or, lastPass,
    List.find?_singleton]
  split <;> rfl

lemma lastPass_eq_none_iff :
    lastPass text passes i = none ↔ ∀ pass ∈ passes, covered text pass i = false := by
  rw [lastPass, Option.map_eq_none_iff, List.find?_eq_none]
  simp

lemma exists_of_lastPass_eq_some {category : Category}
    (h : lastPass text passes i = some category) : ∃ pass ∈ passes, pass.1 = category := by
  obtain ⟨pass, hfind, hpass⟩ := Option.map_eq_some_iff.1 h
  exact ⟨pass, List.mem_reverse.1 (List.mem_of_find?_eq_some hfind), hpass⟩

/-- The first pass of a list decides a byte if it has a match there and the others have none. -/
lemma lastPass_cons_eq_some_iff {pass : Category × Pattern} (h : ∀ q ∈ passes, q.1 ≠ pass.1) :
    lastPass text (pass :: passes) i = some pass.1 ↔
      covered text pass i = true ∧ ∀ q ∈ passes, covered text q i = false := by
  rw [lastPass_cons, ← lastPass_eq_none_iff]
  cases hlast : lastPass text passes i with
  | none => simp
  | some category =>
      obtain ⟨q, hq, rfl⟩ := exists_of_lastPass_eq_some hlast
      simp [h q hq]

lemma lastPass_congr {text' : List Char} {j : Nat}
    (h : ∀ pass ∈ passes, covered text pass i = covered text' pass j) :
    lastPass text passes i = lastPass text' passes j := by
  induction passes with
  | nil => rfl
  | cons pass passes ih =>
      rw [lastPass_cons, lastPass_cons, ih fun q hq => h q (List.mem_cons_of_mem pass hq),
        h pass List.mem_cons_self]

lemma covered_eq_false_of_le (pass : Category × Pattern) (h : byteCount text ≤ i) :
    covered text pass i = false := by
  by_contra hne
  have hcovers : pass.2.Covers text i := covered_iff.1 (Bool.eq_true_of_not_eq_false hne)
  exact absurd hcovers.lt_byteCount (not_lt.2 h)

@[simp] lemma size_sweep (text : List Char) (paint : Paint) (pass : Category × Pattern) :
    (sweep text paint pass).size = paint.size := Paint.size_foldl_cover _ _ _

@[simp] lemma size_foldl_sweep (text : List Char) (paint : Paint)
    (passes : List (Category × Pattern)) :
    (passes.foldl (sweep text) paint).size = paint.size := by
  induction passes generalizing paint with
  | nil => rfl
  | cons pass passes ih => rw [List.foldl_cons, ih, size_sweep]

lemma categoryAt_sweep (text : List Char) (paint : Paint) (pass : Category × Pattern)
    (hi : i < paint.size) :
    (sweep text paint pass).categoryAt i
      = if covered text pass i then some pass.1 else paint.categoryAt i := by
  rw [sweep, Paint.categoryAt_foldl_cover _ _ _ hi]
  congr 1
  exact propext covered_iff.symm

/-- After some sweeps, the last one with a match decides. -/
lemma categoryAt_foldl_sweep (text : List Char) (paint : Paint) (passes : List (Category × Pattern))
    (hi : i < paint.size) :
    (passes.foldl (sweep text) paint).categoryAt i
      = (lastPass text passes i).or (paint.categoryAt i) := by
  induction passes generalizing paint with
  | nil => rfl
  | cons pass passes ih =>
      rw [List.foldl_cons, ih _ (by rwa [size_sweep]), categoryAt_sweep text paint pass hi,
        lastPass_cons, Option.or_assoc]
      split <;> rfl

/-- What a byte is, from the last pass to the first. -/
lemma lastPass_passes (text : List Char) (language : Language) (i : Nat) :
    lastPass text (Highlight.passes language) i =
      if number.Covers text i then some .number
      else if blockComment.Covers text i then some .comment
      else if lineComment.Covers text i then some .comment
      else if (quotedString '\'').Covers text i then some .string
      else if (quotedString '"').Covers text i then some .string
      else if (keywords language.keywords).Covers text i then some .keyword
      else none := by
  have hlast : ∀ rest category p, lastPass text ((category, p) :: rest) i
      = (lastPass text rest i).or (if p.Covers text i then some category else none) := by
    intro rest category p
    rw [lastPass_cons]
    congr 1
    exact if_congr covered_iff rfl rfl
  have hor : ∀ (c : Prop) [Decidable c] category (rest : Option Category),
      (if c then some category else none).or rest = if c then some category else rest := by
    intro c _ category rest
    split <;> rfl
  have hnil : lastPass text [] i = none := rfl
  simp only [Highlight.passes, hlast, hnil, Option.none_or, Option.or_assoc]
  simp only [hor]

lemma lastPass_eq_number_iff {language : Language} :
    lastPass text (Highlight.passes language) i = some .number ↔ number.Covers text i := by
  rw [lastPass_passes]
  split_ifs <;> simp_all

lemma lastPass_eq_comment_iff {language : Language} :
    lastPass text (Highlight.passes language) i = some .comment ↔
      ¬ number.Covers text i ∧ (lineComment.Covers text i ∨ blockComment.Covers text i) := by
  rw [lastPass_passes]
  split_ifs <;> simp_all

/-- A byte is that of a string if one of the string patterns has a match on it, and no comment or
number. -/
lemma lastPass_eq_string_iff {language : Language} :
    lastPass text (Highlight.passes language) i = some .string ↔
      ((quotedString '"').Covers text i ∨ (quotedString '\'').Covers text i) ∧
        ∀ p ∈ [lineComment, blockComment, number], ¬ p.Covers text i := by
  rw [lastPass_passes]
  split_ifs <;> simp_all

/-- No pass has a match behind the text, so none is the last. -/
lemma lastPass_eq_none_of_le (passes : List (Category × Pattern)) (h : byteCount text ≤ i) :
    lastPass text passes i = none :=
  lastPass_eq_none_iff.2 fun pass _ => covered_eq_false_of_le pass h

/-- **The spans of a text** tell for every byte what the last pass with a match on it is. -/
theorem describes_highlight (text : String) (language : Language) :
    Describes (highlight text language) (lastPass text.toList (Highlight.passes language)) := by
  have hcategory : Paint.categoryAt ((Highlight.passes language).foldl (sweep text.toList)
      (Array.replicate text.utf8ByteSize none))
        = lastPass text.toList (Highlight.passes language) := by
    funext i
    by_cases hi : i < text.utf8ByteSize
    · rw [categoryAt_foldl_sweep _ _ _ (by rwa [Array.size_replicate]), Paint.categoryAt_replicate,
        Option.or_none]
    · have hle : byteCount text.toList ≤ i := by
        rw [byteCount_toList]
        omega
      rw [lastPass_eq_none_of_le _ hle, Paint.categoryAt_eq_none_of_le]
      rw [size_foldl_sweep, Array.size_replicate]
      omega
  rw [← hcategory]
  exact Paint.describes_spans _

/-- The spans of a text are its maximal runs of bytes with one last pass. -/
theorem mem_highlight_iff {text : String} {language : Language} {start stop : Nat}
    {category : Category} : ⟨start, stop, category⟩ ∈ highlight text language ↔ start < stop ∧
      (∀ i, start ≤ i ∧ i < stop →
        lastPass text.toList (Highlight.passes language) i = some category) ∧
      (∀ i, i + 1 = start →
        lastPass text.toList (Highlight.passes language) i ≠ some category) ∧
      lastPass text.toList (Highlight.passes language) stop ≠ some category :=
  (describes_highlight text language).mem_iff

/-- Within a character, a pass has a match on every byte or on none. -/
lemma covered_succ_of_not_isCut (pass : Category × Pattern) (h : ¬ IsCut text (i + 1)) :
    covered text pass (i + 1) = covered text pass i := by
  have hcovers : ∀ r ∈ pass.2.occurrences text, r.Covers (i + 1) ↔ r.Covers i := by
    intro r hr
    obtain ⟨hstart, hstop, -⟩ := Pattern.isCut_of_mem_occurrences hr
    have hne : r.start ≠ i + 1 := fun heq => h (heq ▸ hstart)
    have hne' : r.stop ≠ i + 1 := fun heq => h (heq ▸ hstop)
    rw [ByteRange.Covers, ByteRange.Covers]
    omega
  rw [Bool.eq_iff_iff, covered_iff, covered_iff]
  exact exists_congr fun r => and_congr_right (hcovers r)

lemma lastPass_succ_of_not_isCut (passes : List (Category × Pattern)) (h : ¬ IsCut text (i + 1)) :
    lastPass text passes (i + 1) = lastPass text passes i :=
  lastPass_congr fun pass _ => covered_succ_of_not_isCut pass h

/-- The edges of a run of one category fall between characters. -/
lemma isCut_of_describes {spans : List StyleSpan} (h : Describes spans (lastPass text passes))
    {s : StyleSpan} (hs : s ∈ spans) : IsCut text s.start ∧ IsCut text s.stop := by
  have hlt := h.start_lt_stop s hs
  constructor
  · by_contra hcut
    obtain ⟨i, hi⟩ : ∃ i, s.start = i + 1 := Nat.exists_eq_succ_of_ne_zero fun hzero =>
      hcut (hzero ▸ isCut_zero text)
    refine h.ne_some_of_succ_eq_start hs hi.symm ?_
    rw [← lastPass_succ_of_not_isCut passes (hi ▸ hcut), ← hi]
    exact h.eq_some hs ⟨le_refl _, hlt⟩
  · by_contra hcut
    obtain ⟨i, hi⟩ : ∃ i, s.stop = i + 1 := Nat.exists_eq_succ_of_ne_zero (by omega)
    refine h.ne_some_stop hs ?_
    rw [hi, lastPass_succ_of_not_isCut passes (hi ▸ hcut)]
    exact h.eq_some hs ⟨by omega, by omega⟩

end Highlight

open Highlight

/-- A span between two cuts of a text has a text of its own. -/
lemma StyleSpan.exists_text?_eq_some {s : StyleSpan} {text : String} (hle : s.start ≤ s.stop)
    (hstart : IsCut text.toList s.start) (hstop : IsCut text.toList s.stop) :
    ∃ pre part post, text.toList = pre ++ (part ++ post) ∧ byteCount pre = s.start ∧
      byteCount (pre ++ part) = s.stop ∧ s.text? text = some (String.ofList part) := by
  obtain ⟨pre, rest, htext, hpre⟩ := hstart
  obtain ⟨upto, post, htext', hupto⟩ := hstop
  obtain ⟨part, rfl, rfl⟩ :=
    append_eq_append_of_le (htext.symm.trans htext') (hpre.trans_le (hle.trans hupto.ge))
  have hsize : s.size = byteCount part := by
    rw [size, ← hpre, ← hupto, byteCount_append, Nat.add_sub_cancel_left]
  refine ⟨pre, part, post, htext, hpre, hupto, ?_⟩
  rw [text?, htext, ← hpre, dropBytes?_append, hsize, Option.bind_eq_bind, Option.bind_some,
    takeBytes?_append]
  rfl

/-- **The list of spans.** The spans of a text are not empty, end within the text, and fall between
characters of it, so that each has a text of its own. They stand in order without overlap, and two
that touch have different categories. The span on a byte has the category of the last pass with a
match on that byte, and there is no span on a byte without a match. The last pass is that of numbers
if they have a match there, else that of comments, then that of strings, and then that of
keywords. -/
theorem highlight_spanList (text : String) (language : Language) :
    (∀ s ∈ highlight text language, s.start < s.stop ∧ s.stop ≤ text.utf8ByteSize ∧
      ∃ pre part post, text.toList = pre ++ (part ++ post) ∧ byteCount pre = s.start ∧
        byteCount (pre ++ part) = s.stop ∧ s.text? text = some (String.ofList part)) ∧
    ((highlight text language).Pairwise fun s t =>
      s.stop ≤ t.start ∧ (s.stop = t.start → s.category ≠ t.category)) ∧
    (∀ i category, (∃ s ∈ highlight text language, s.start ≤ i ∧ i < s.stop ∧
        s.category = category) ↔ lastPass text.toList (passes language) i = some category) ∧
    ∀ i, lastPass text.toList (passes language) i =
      if number.Covers text.toList i then some .number
      else if blockComment.Covers text.toList i then some .comment
      else if lineComment.Covers text.toList i then some .comment
      else if (quotedString '\'').Covers text.toList i then some .string
      else if (quotedString '"').Covers text.toList i then some .string
      else if (keywords language.keywords).Covers text.toList i then some .keyword
      else none := by
  have h := describes_highlight text language
  refine ⟨fun s hs => ?_, h.pairwise, fun i category => ?_, lastPass_passes text.toList language⟩
  · have hlt := h.start_lt_stop s hs
    obtain ⟨hstart, hstop⟩ := isCut_of_describes h hs
    obtain ⟨pre, part, post, htext, hpre, hpart, hs⟩ :=
      StyleSpan.exists_text?_eq_some hlt.le hstart hstop
    refine ⟨hlt, ?_, pre, part, post, htext, hpre, hpart, hs⟩
    rw [← byteCount_toList, htext, ← List.append_assoc, byteCount_append, hpart]
    omega
  · rw [← h.tags i category]
    simp only [StyleSpan.Covers, and_assoc]

/-- Two spans that touch, the first of them over a character of two bytes. -/
example : highlight "\"é\"1" .plainText = [⟨0, 4, .string⟩, ⟨4, 5, .number⟩] := by
  decide +kernel

end Folio
