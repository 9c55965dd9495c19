import Mathlib.Tactic
import Folio.Proofs.Highlight.LineFeeds
import Folio.Proofs.Highlight.Numerals
import Folio.Proofs.Highlight.SpanList

/-!
The number spans of highlighted text: the numbers that `Highlight.numbers` finds from the left over
the runs of digits of a text, and the number pattern as well (`Highlight.occurrences_number`). They
do not touch, so that each has a span of its own (`highlight_numberSpans`).
-/

namespace Folio

open Text

namespace Highlight

/-! ### The numbers of a text -/

/-- The number that starts between two parts of a text. There is none unless a run of digits starts
there, not within the bytes up to `taken` and not behind a word character. -/
def numberAt? (taken : Nat) (pre rest : List Char) : Option (List Char) :=
  if rest.head?.any Char.isDigit = true ∧ pre.getLast?.any isWord = false ∧ taken ≤ byteCount pre
  then numeral? rest else none

/-- The numbers of the part of a text behind `pre`, from the left. The bytes up to `taken` belong to
a number that was found before. -/
def numbersFrom (taken : Nat) (pre : List Char) : List Char → List ByteRange
  | [] => []
  | x :: rest =>
    match numberAt? taken pre (x :: rest) with
    | some mid => ⟨byteCount pre, byteCount (pre ++ mid)⟩ ::
        numbersFrom (byteCount (pre ++ mid)) (pre ++ [x]) rest
    | none => numbersFrom taken (pre ++ [x]) rest

/-- The numbers of a text, from the left. -/
def numbers (text : List Char) : List ByteRange := numbersFrom 0 [] text

variable {pre mid post rest : List Char} {x : Char} {taken : Nat}

/-! ### The sweep for numbers -/

lemma exists_end?_of_numberAt? (h : numberAt? taken pre rest = some mid) :
    ∃ post, mid ≠ [] ∧ rest = mid ++ post ∧
      number.end? (.between pre rest) = some (.between (pre ++ mid) post) := by
  rw [numberAt?] at h
  split_ifs at h with hplace
  obtain ⟨hdigit, hpre, -⟩ := hplace
  have hrel := rel_end?_number hpre hdigit
  rw [h] at hrel
  generalize number.end? (.between pre rest) = d? at hrel ⊢
  cases hrel with
  | some hd =>
      obtain ⟨hne, post, htext, rfl⟩ := hd
      exact ⟨post, hne, htext, rfl⟩

/-- At a place that is not taken, the rule finds the stretch that the pattern prefers. -/
lemma numberAt?_of_end? (htaken : taken ≤ byteCount pre)
    (hend : number.end? (.between pre (mid ++ post)) = some (.between (pre ++ mid) post)) :
    numberAt? taken pre (mid ++ post) = some mid := by
  obtain ⟨hpre, hnumeral⟩ := matches_number_iff.1 (Pattern.matches_of_end? hend)
  have hdigit := hnumeral.any_isDigit
  have hrel := rel_end?_number hpre hdigit
  rw [numberAt?, if_pos ⟨hdigit, hpre, htaken⟩]
  rw [hend] at hrel
  generalize numeral? (mid ++ post) = mid? at hrel ⊢
  cases hrel with
  | some hd =>
      obtain ⟨-, post', htext, hplace⟩ := hd
      obtain ⟨rfl, -⟩ := Cursor.between_inj hplace htext
      rfl

/-- The bytes of a number that was found are passed over. -/
lemma numbersFrom_append (h : byteCount (pre ++ mid) ≤ taken) :
    numbersFrom taken pre (mid ++ post) = numbersFrom taken (pre ++ mid) post := by
  induction mid generalizing pre with
  | nil => simp
  | cons x mid ih =>
      have hnone : numberAt? taken pre (x :: (mid ++ post)) = none := by
        refine if_neg fun hplace => ?_
        have hx := x.utf8Size_pos
        have hfree := hplace.2.2
        simp only [byteCount_append, byteCount_cons] at h
        omega
      rw [List.append_cons] at h
      rw [List.cons_append, numbersFrom, hnone, ih h, ← List.append_cons]

/-- The rule finds what the sweep of the number pattern finds. -/
lemma numbersFrom_eq_of_sweep {found : List ByteRange} (h : number.Sweep pre rest found)
    (htaken : taken ≤ byteCount pre) : numbersFrom taken pre rest = found := by
  induction h generalizing taken with
  | stop pre => rfl
  | @skip pre rest x found hnone _ ih =>
      have hat : numberAt? taken pre (x :: rest) = none := by
        rw [Option.eq_none_iff_forall_ne_some]
        intro mid hmid
        obtain ⟨post, hne, htext, hend⟩ := exists_end?_of_numberAt? hmid
        exact hnone mid post hne htext hend
      rw [numbersFrom, hat]
      exact ih (by rw [byteCount_append]; omega)
  | @hit pre mid post found hne hend _ ih =>
      have hat := numberAt?_of_end? htaken hend
      cases mid with
      | nil => exact absurd rfl hne
      | cons x mid =>
          have hpre : pre ++ x :: mid = pre ++ [x] ++ mid := List.append_cons pre x mid
          have hbehind : numbersFrom (byteCount (pre ++ x :: mid)) (pre ++ [x]) (mid ++ post)
              = found := by
            rw [numbersFrom_append (congrArg byteCount hpre).ge, ← hpre, ih le_rfl]
          rw [List.cons_append] at hat ⊢
          rw [numbersFrom, hat]
          exact congrArg _ hbehind

/-- **The number pattern finds the numbers of a text.** -/
theorem occurrences_number (text : List Char) : number.occurrences text = numbers text :=
  (numbersFrom_eq_of_sweep (Pattern.sweep_occurrences number text) (Nat.zero_le _)).symm

/-! ### Numbers apart -/

/-- No number starts where another one stops. That one would have to end in its point, but then the
digits of the other are its decimals. -/
lemma missesAt_behind_number
    (hend : number.end? (.between pre (mid ++ post)) = some (.between (pre ++ mid) post)) :
    number.MissesAt (pre ++ mid) post := by
  rintro mid' post' - rfl hend'
  obtain ⟨hpre, hnumeral⟩ := matches_number_iff.1 (Pattern.matches_of_end? hend)
  obtain ⟨hpre', hnumeral'⟩ := matches_number_iff.1 (Pattern.matches_of_end? hend')
  cases hnumeral with
  | whole hdigits =>
      rw [hdigits.any_getLast? pre] at hpre'
      exact Bool.false_ne_true hpre'.symm
  | @decimal digits decimals _ _ hdecimals =>
      have hlast := hdecimals.any_getLast? (pre ++ (digits ++ ['.']))
      rw [List.append_assoc, List.append_assoc, List.singleton_append, hpre'] at hlast
      exact Bool.false_ne_true hlast
  | @pointed digits _ hdigits =>
      obtain ⟨decimals, tail, htext, hdecimals, htail⟩ := exists_isDigits hnumeral'.any_isDigit
      have hbehind : tail.head?.any isWord = false := by
        rcases hnumeral'.eq_append htext.symm hdecimals htail with
          ⟨-, hword⟩ | ⟨-, rfl, -⟩ | ⟨_, -, -, rfl, -⟩
        · exact hword
        · exact isWord_point
        · exact isWord_point
      have hdecimal := end?_number_of_point hpre hdigits
        (end?_decimalsEnd_of_isDigits hdecimals hbehind (pre ++ digits ++ ['.']))
      rw [← htext] at hdecimal
      rw [List.append_assoc, List.singleton_append, hdecimal] at hend
      have hrest : tail = decimals ++ tail :=
        htext ▸ congrArg Cursor.rest (Option.some.inj hend)
      exact hdecimals.1 (List.self_eq_append_left.1 hrest)

lemma pairwise_apart_numbers (text : List Char) :
    (numbers text).Pairwise fun r s => r.stop < s.start := by
  have hsweep : ∀ {pre rest found}, number.Sweep pre rest found →
      found.Pairwise fun r s : ByteRange => r.stop < s.start := by
    intro pre rest found h
    induction h with
    | stop => exact .nil
    | skip _ _ ih => exact ih
    | @hit pre mid post found _ hend hnext ih =>
        refine List.pairwise_cons.2 ⟨fun s hs => ?_, ih⟩
        have hmiss := missesAt_behind_number hend
        cases hnext with
        | stop => exact absurd hs List.not_mem_nil
        | @skip _ _ x _ _ hnext =>
            have hle := hnext.le_start hs
            have hx := x.utf8Size_pos
            simp only [byteCount_append, byteCount_cons, byteCount_nil] at hle ⊢
            omega
        | hit hne hend' => exact absurd hend' (hmiss _ _ hne rfl)
  rw [← occurrences_number]
  exact hsweep (Pattern.sweep_occurrences number text)

end Highlight

open Highlight

/-- **The number spans.** The number spans of a text are the same for every language, and are the
numbers that the rule finds, one span each: no two of them touch, and each is a whole match of the
number pattern. -/
theorem highlight_numberSpans (text : String) (language : Language) :
    (highlight text language).filter (·.category = .number)
      = (numbers text.toList).map (ByteRange.span .number) ∧
    ((numbers text.toList).Pairwise fun r s => r.stop < s.start) ∧
    number.occurrences text.toList = numbers text.toList := by
  have hlt : ∀ r ∈ numbers text.toList, r.start < r.stop := by
    intro r hr
    rw [← occurrences_number] at hr
    exact (Pattern.isCut_of_mem_occurrences hr).2.2
  have hapart := pairwise_apart_numbers text.toList
  refine ⟨?_, hapart, occurrences_number text.toList⟩
  refine ((describes_highlight text language).filter .number).unique ?_
  have hnumbers := describes_map_span hlt hapart .number
  rw [← occurrences_number] at hnumbers ⊢
  simpa only [lastPass_eq_number_iff, Pattern.Covers] using hnumbers

/-- A point with a word behind it, two points, a word before the digits, and a point in front of a
letter that takes two bytes. -/
example : numbers "1.5x 2.3.4 x7 5.é 6".toList
    = [⟨0, 2⟩, ⟨5, 8⟩, ⟨9, 10⟩, ⟨14, 16⟩, ⟨19, 20⟩] := by
  decide +kernel

end Folio
