import Mathlib.Tactic
import Folio.Proofs.Highlight.LineFeeds

/-!
What the pattern of strings matches at a place: its quote, a run without quotes and line feeds, and
the quote or the end of the line that closes it (`Highlight.matches_quotedString_iff`,
`Highlight.end?_quotedString`).
-/

namespace Folio

namespace Highlight

variable {pre mid post rest a b : List Char} {quote c : Char}

/-- A string is a quote, a run without quotes and line feeds, and a quote or the end of a line. -/
lemma matches_quotedString_iff : (quotedString quote).Matches pre mid post ↔
    ∃ body closing, mid = quote :: (body ++ closing) ∧ (∀ x ∈ body, x ≠ quote ∧ x ≠ '\n') ∧
      (closing = [quote] ∨ closing = [] ∧ ∀ x ∈ post.head?, x = '\n') := by
  constructor
  · rintro ⟨m₁, m₂, rfl, ⟨x, rfl, hx⟩, body, m₃, rfl, hbody, closing, m₄, rfl, hclosing, rfl⟩
    obtain rfl := beq_iff_eq.1 hx
    refine ⟨body, closing, by simp, fun y hy => by simpa using hbody y hy, ?_⟩
    rcases hclosing with ⟨y, rfl, hy⟩ | hline
    · exact .inl (by rw [beq_iff_eq.1 hy])
    · exact .inr hline
  · rintro ⟨body, closing, rfl, hbody, hclosing⟩
    refine ⟨[quote], _, rfl, ⟨quote, rfl, beq_self_eq_true quote⟩, body, closing, rfl,
      fun y hy => by simpa using hbody y hy, closing, [], (List.append_nil closing).symm, ?_, rfl⟩
    exact hclosing.imp (fun h => ⟨quote, h, beq_self_eq_true quote⟩) id

/-- The characters that a string takes before it is closed. -/
def inString (quote c : Char) : Bool := c != quote && c != '\n'

/-- What closes a string before `post`: its quote, or nothing at the end of a line. -/
def ClosesString (quote : Char) (closing post : List Char) : Prop :=
  closing = [quote] ∨ closing = [] ∧ ∀ x ∈ post.head?, x ≠ quote ∧ x = '\n'

/-- A run stops at what closes the string. -/
lemma exists_closesString_dropWhile (quote : Char) (rest : List Char) :
    ∃ closing post, rest.dropWhile (inString quote) = closing ++ post ∧
      ClosesString quote closing post := by
  have hstop := List.head?_dropWhile_not (inString quote) rest
  cases htail : rest.dropWhile (inString quote) with
  | nil => exact ⟨[], [], rfl, .inr ⟨rfl, by simp⟩⟩
  | cons x tail =>
      rw [htail] at hstop
      by_cases hclosed : x = quote
      · exact ⟨[x], tail, rfl, .inl (by rw [hclosed])⟩
      · have hline : x = '\n' := by simpa [inString, hclosed] using hstop
        refine ⟨[], x :: tail, rfl, .inr ⟨rfl, fun y hy => ?_⟩⟩
        obtain rfl : x = y := Option.some.inj hy
        exact ⟨hclosed, hline⟩

lemma end?_quotedString {quote : Char} {closing : List Char}
    (hclosing : ClosesString quote closing post)
    (htail : rest.dropWhile (inString quote) = closing ++ post) (pre : List Char) :
    (quotedString quote).end? (.between pre ([quote] ++ rest))
      = some (.between (pre ++ ([quote] ++ (rest.takeWhile (inString quote) ++ closing)))
          post) := by
  have hopen := Pattern.end?_char (beq_self_eq_true quote) pre rest
  have hrun := Pattern.end?_greedy (inString quote) (pre ++ [quote]) rest
  have hclose : ∀ pre, (Pattern.alt (.char (· == quote)) .lineEnd).end?
      (.between pre (closing ++ post)) = some (.between (pre ++ closing) post) := by
    intro pre
    rcases hclosing with rfl | ⟨rfl, hpost⟩
    · rw [Pattern.end?, Pattern.ends, List.head?_append]
      exact congrArg (Option.or · _) (Pattern.end?_char (beq_self_eq_true quote) pre post)
    · cases post with
      | nil => simp [Pattern.end?, Pattern.ends, Cursor.step?]
      | cons x post =>
          obtain ⟨hne, rfl⟩ := hpost x rfl
          simp [Pattern.end?, Pattern.ends, Cursor.step?, hne]
  have hplace : pre ++ ([quote] ++ (rest.takeWhile (inString quote) ++ closing))
      = pre ++ [quote] ++ rest.takeWhile (inString quote) ++ closing := by simp
  rw [htail] at hrun
  rw [hplace]
  exact Pattern.end?_seq hopen (Pattern.end?_seq hrun (Pattern.end?_seq (hclose _) rfl))

/-- A string starts at every quote, since it may run to the end of its line. -/
lemma not_missesAt_quotedString (quote : Char) (pre rest : List Char) :
    ¬ (quotedString quote).MissesAt pre (quote :: rest) := by
  obtain ⟨closing, post, htail, hclosing⟩ := exists_closesString_dropWhile quote rest
  have hend := end?_quotedString hclosing htail pre
  have hrest : rest.takeWhile (inString quote) ++ (closing ++ post) = rest := by
    rw [← htail, List.takeWhile_append_dropWhile]
  intro hmiss
  refine hmiss ([quote] ++ (rest.takeWhile (inString quote) ++ closing)) post (by simp) ?_ hend
  rw [List.append_assoc, List.append_assoc, hrest]
  rfl

lemma newline_notMem_of_matches (hquote : quote ≠ '\n')
    (h : (quotedString quote).Matches pre mid post) : '\n' ∉ mid := by
  obtain ⟨body, closing, rfl, hbody, hclosing⟩ := matches_quotedString_iff.1 h
  intro hmem
  rcases List.mem_cons.1 hmem with heq | hmem
  · exact hquote heq.symm
  rcases List.mem_append.1 hmem with hmem | hmem
  · exact (hbody _ hmem).2 rfl
  · rcases hclosing with rfl | ⟨rfl, -⟩
    · exact hquote (List.mem_singleton.1 hmem).symm
    · exact absurd hmem List.not_mem_nil

/-- Within a string, a character that is not a quote has one quote before it, the opening one. -/
lemma eq_quote_or_count_eq_one (h : (quotedString quote).Matches pre (a ++ c :: b) post) :
    c = quote ∨ a.count quote = 1 := by
  obtain ⟨body, closing, hmid, hbody, hclosing⟩ := matches_quotedString_iff.1 h
  cases a with
  | nil => exact .inl (List.cons.inj hmid).1
  | cons x a =>
      obtain ⟨rfl, hrest⟩ := List.cons.inj hmid
      have hrun : ∀ {a : List Char}, (∀ y ∈ a, y ∈ body) → (x :: a).count x = 1 := by
        intro a ha
        have hnone : x ∉ a := fun hx => (hbody x (ha x hx)).1 rfl
        rw [List.count_cons_self, List.count_eq_zero.2 hnone]
      rcases List.append_eq_append_iff.1 hrest with ⟨m, rfl, -⟩ | ⟨m, rfl, htail⟩
      · exact .inr (hrun fun y hy => List.mem_append_left m hy)
      · -- only the closing quote comes behind the run
        cases m with
        | nil => exact .inr (hrun fun y hy => by simpa using hy)
        | cons z m => rcases hclosing with rfl | ⟨rfl, -⟩ <;> simp at htail

end Highlight

end Folio
