import Mathlib.Tactic
import Mathlib.Data.List.TakeWhile
import Folio.Highlight.Basic
import Folio.Proofs.Highlight.WordRuns

/-!
What the number pattern matches at a place.

* `Highlight.numeral?`: how much of a text that starts with a digit is a number. The rule looks at
  no pattern.
* `Highlight.Numeral`: the three forms of a number, and what has to follow each of them.
  `Highlight.matches_number_iff`: the number pattern matches these forms.
* `Highlight.rel_end?_number`: the pattern prefers what the rule says.
-/

namespace Folio

open Text

namespace Highlight

/-! ### The rule -/

/-- How much of a text that starts with a digit is a number. Its digits are, with a point and
decimals behind them if no word goes on there. Otherwise the point alone belongs to the number if a
word starts right behind it, and the digits are a number by themselves if no word goes on behind
them. -/
def numeral? (text : List Char) : Option (List Char) :=
  let digits := text.takeWhile Char.isDigit
  let rest := text.dropWhile Char.isDigit
  let decimals := rest.tail.takeWhile Char.isDigit
  let behind := rest.tail.dropWhile Char.isDigit
  if rest.head? = some '.' ∧ decimals ≠ [] ∧ behind.head?.any isWord = false then
    some (digits ++ '.' :: decimals)
  else if rest.head? = some '.' ∧ rest.tail.head?.any isWord = true then some (digits ++ ['.'])
  else if rest.head?.any isWord = false then some digits
  else none

variable {pre mid post rest tail digits decimals : List Char} {x : Char}

/-! ### The forms of a number -/

/-- The text is not empty and has digits only. -/
def IsDigits (digits : List Char) : Prop := digits ≠ [] ∧ ∀ c ∈ digits, c.isDigit = true

/-- The text has the form of a number before `post`. -/
inductive Numeral : List Char → List Char → Prop
  | whole {digits post : List Char} (hdigits : IsDigits digits)
      (hpost : post.head?.any isWord = false) : Numeral digits post
  | pointed {digits post : List Char} (hdigits : IsDigits digits)
      (hpost : post.head?.any isWord = true) : Numeral (digits ++ ['.']) post
  | decimal {digits decimals post : List Char} (hdigits : IsDigits digits)
      (hdecimals : IsDigits decimals) (hpost : post.head?.any isWord = false) :
      Numeral (digits ++ '.' :: decimals) post

lemma isWord_of_isDigit (h : x.isDigit = true) : isWord x = true := by
  have hbounds : 48 ≤ x.toNat ∧ x.toNat ≤ 57 := Char.isDigit_iff_toNat.1 h
  rw [isWord, wordRanges, CharRanges.covers, if_neg (by omega), if_pos hbounds.2]

lemma isWord_point : isWord '.' = false := by decide +kernel

/-- What no word goes on in starts with no digit. -/
lemma any_isDigit_eq_false (h : post.head?.any isWord = false) :
    post.head?.any Char.isDigit = false := by
  cases post with
  | nil => rfl
  | cons c post =>
      by_contra hdigit
      have hword : isWord c = true := isWord_of_isDigit (Bool.eq_true_of_not_eq_false hdigit)
      exact Bool.false_ne_true (h.symm.trans hword)

namespace IsDigits

lemma any_head? (h : IsDigits digits) (post : List Char) :
    (digits ++ post).head?.any isWord = true :=
  any_head?_of_forall h.1 (fun c hc => isWord_of_isDigit (h.2 c hc)) post

lemma any_getLast? (h : IsDigits digits) (pre : List Char) :
    (pre ++ digits).getLast?.any isWord = true :=
  any_getLast?_of_forall h.1 (fun c hc => isWord_of_isDigit (h.2 c hc)) pre

/-- Digits before something else are the whole run of digits there. -/
lemma span_eq (h : IsDigits digits) (hpost : post.head?.any Char.isDigit = false) :
    (digits ++ post).takeWhile Char.isDigit = digits ∧
      (digits ++ post).dropWhile Char.isDigit = post := by
  rw [List.takeWhile_append_of_pos h.2, List.dropWhile_append_of_pos h.2]
  cases post with
  | nil => simp
  | cons c post =>
      have hc : ¬ c.isDigit = true := fun hdigit => Bool.false_ne_true (hpost.symm.trans hdigit)
      rw [List.takeWhile_cons_of_neg hc, List.dropWhile_cons_of_neg hc, List.append_nil]
      exact ⟨rfl, rfl⟩

lemma append_inj {digits' post' : List Char} (h : IsDigits digits) (h' : IsDigits digits')
    (hpost : post.head?.any Char.isDigit = false) (hpost' : post'.head?.any Char.isDigit = false)
    (htext : digits ++ post = digits' ++ post') : digits = digits' ∧ post = post' := by
  obtain ⟨htake, hdrop⟩ := h.span_eq hpost
  obtain ⟨htake', hdrop'⟩ := h'.span_eq hpost'
  rw [htext] at htake hdrop
  exact ⟨htake.symm.trans htake', hdrop.symm.trans hdrop'⟩

/-- The digits at the start of a text that starts with one. -/
lemma takeWhile (h : rest.head?.any Char.isDigit = true) :
    IsDigits (rest.takeWhile Char.isDigit) := by
  refine ⟨?_, fun c hc => List.mem_takeWhile_imp hc⟩
  cases rest with
  | nil => simp at h
  | cons c rest =>
      have hc : c.isDigit = true := h
      rw [List.takeWhile_cons_of_pos hc]
      exact List.cons_ne_nil c _

end IsDigits

/-- Digits, perhaps a point, and perhaps more digits are what the number pattern matches between two
edges. -/
lemma matches_number_iff_exists : number.Matches pre mid post ↔ ∃ digits point decimals,
    mid = digits ++ (point ++ decimals) ∧ IsDigits digits ∧ (point = ['.'] ∨ point = []) ∧
      (∀ c ∈ decimals, c.isDigit = true) ∧ AtEdge pre (mid ++ post) ∧
      AtEdge (pre ++ mid) post := by
  constructor
  · rintro ⟨m₁, m₂, rfl, ⟨rfl, hstart⟩, digit, m₃, rfl, ⟨x, rfl, hx⟩, digits, m₄, rfl, hdigits,
      point, m₅, rfl, hpoint, decimals, m₆, rfl, hdecimals, m₇, m₈, rfl, ⟨rfl, hstop⟩, rfl⟩
    refine ⟨x :: digits, point, decimals, by simp, ⟨List.cons_ne_nil x digits, ?_⟩, ?_, hdecimals,
      by simpa using hstart, by simpa using hstop⟩
    · exact List.forall_mem_cons.2 ⟨hx, hdigits⟩
    · rcases hpoint with ⟨y, rfl, hy⟩ | rfl
      · exact .inl (by rw [beq_iff_eq.1 hy])
      · exact .inr rfl
  · rintro ⟨digits, point, decimals, rfl, ⟨hne, hdigits⟩, hpoint, hdecimals, hstart, hstop⟩
    cases digits with
    | nil => exact absurd rfl hne
    | cons x digits =>
        obtain ⟨hx, hdigits⟩ := List.forall_mem_cons.1 hdigits
        refine ⟨[], _, rfl, ⟨rfl, hstart⟩, [x], _, rfl, ⟨x, rfl, hx⟩, digits, _, rfl, hdigits,
          point, _, rfl, ?_, decimals, [], (List.append_nil _).symm, hdecimals, [], [], rfl,
          ⟨rfl, by simpa using hstop⟩, rfl⟩
        rcases hpoint with rfl | rfl
        · exact .inl ⟨'.', rfl, rfl⟩
        · exact .inr rfl

lemma matches_number (h : number.Matches pre mid post) :
    AtEdge pre (mid ++ post) ∧ AtEdge (pre ++ mid) post ∧
      ∀ c ∈ mid, c.isDigit = true ∨ c = '.' := by
  obtain ⟨digits, point, decimals, rfl, hdigits, hpoint, hdecimals, hstart, hstop⟩ :=
    matches_number_iff_exists.1 h
  refine ⟨hstart, hstop, fun c hc => ?_⟩
  rcases List.mem_append.1 hc with hc | hc
  · exact .inl (hdigits.2 c hc)
  rcases List.mem_append.1 hc with hc | hc
  · rcases hpoint with rfl | rfl
    · exact .inr (List.mem_singleton.1 hc)
    · exact absurd hc List.not_mem_nil
  · exact .inl (hdecimals c hc)

/-- **The number pattern matches the forms of a number**, where no word leads up to them. -/
theorem matches_number_iff :
    number.Matches pre mid post ↔ pre.getLast?.any isWord = false ∧ Numeral mid post := by
  rw [matches_number_iff_exists]
  constructor
  · rintro ⟨digits, point, decimals, rfl, hdigits, hpoint, hdecimals, hstart, hstop⟩
    rw [List.append_assoc, atEdge_before_word (hdigits.any_head? _)] at hstart
    refine ⟨hstart, ?_⟩
    rcases hpoint with rfl | rfl
    · rw [← List.append_assoc digits, ← List.append_assoc] at hstop
      by_cases hnil : decimals = []
      · -- there is an edge behind the point only where a word starts
        subst hnil
        rw [List.append_nil, atEdge_behind_other (by simpa using isWord_point)] at hstop
        exact .pointed hdigits hstop
      · have hrun : IsDigits decimals := ⟨hnil, hdecimals⟩
        rw [atEdge_behind_word (hrun.any_getLast? _)] at hstop
        exact .decimal hdigits hrun hstop
    · -- without a point, the decimals are further digits
      have hrun : IsDigits (digits ++ decimals) :=
        ⟨by simp [hdigits.1], fun c hc => (List.mem_append.1 hc).elim (hdigits.2 c) (hdecimals c)⟩
      rw [List.nil_append, atEdge_behind_word (hrun.any_getLast? pre)] at hstop
      exact .whole hrun hstop
  · rintro ⟨hpre, hnumeral⟩
    cases hnumeral with
    | whole hdigits hpost =>
        exact ⟨mid, [], [], by simp, hdigits, .inr rfl, by simp,
          (atEdge_before_word (hdigits.any_head? _)).2 hpre,
          (atEdge_behind_word (hdigits.any_getLast? pre)).2 hpost⟩
    | @pointed digits _ hdigits hpost =>
        refine ⟨digits, ['.'], [], by simp, hdigits, .inl rfl, by simp, ?_, ?_⟩
        · rw [List.append_assoc, atEdge_before_word (hdigits.any_head? _)]
          exact hpre
        · rw [← List.append_assoc, atEdge_behind_other (by simpa using isWord_point)]
          exact hpost
    | @decimal digits decimals _ hdigits hdecimals hpost =>
        refine ⟨digits, ['.'], decimals, rfl, hdigits, .inl rfl, hdecimals.2, ?_, ?_⟩
        · rw [List.append_assoc, atEdge_before_word (hdigits.any_head? _)]
          exact hpre
        · have hlast := hdecimals.any_getLast? (pre ++ (digits ++ ['.']))
          rw [List.append_assoc, List.append_assoc, List.singleton_append] at hlast
          rw [atEdge_behind_word hlast]
          exact hpost

lemma Numeral.any_isDigit (h : Numeral mid post) :
    (mid ++ post).head?.any Char.isDigit = true := by
  have hhead : ∀ {digits}, IsDigits digits → ∀ rest,
      (digits ++ rest).head?.any Char.isDigit = true := by
    intro digits hdigits rest
    rw [List.head?_append_of_ne_nil digits hdigits.1, List.head?_eq_some_head hdigits.1]
    exact hdigits.2 _ (List.head_mem hdigits.1)
  cases h with
  | whole hdigits => exact hhead hdigits post
  | pointed hdigits =>
      rw [List.append_assoc]
      exact hhead hdigits _
  | decimal hdigits =>
      rw [List.append_assoc]
      exact hhead hdigits _

/-- A text that starts with a digit is its run of digits, and something else. -/
lemma exists_isDigits (h : rest.head?.any Char.isDigit = true) :
    ∃ digits tail, rest = digits ++ tail ∧ IsDigits digits ∧
      tail.head?.any Char.isDigit = false := by
  refine ⟨rest.takeWhile Char.isDigit, rest.dropWhile Char.isDigit,
    List.takeWhile_append_dropWhile.symm, .takeWhile h, ?_⟩
  have hstop := List.head?_dropWhile_not Char.isDigit rest
  cases hhead : (rest.dropWhile Char.isDigit).head? with
  | none => rfl
  | some c => simpa [hhead] using hstop

/-- The number at the start of a text, from the run of digits there and what follows it. -/
lemma numeral?_append (hdigits : IsDigits digits)
    (htail : tail.head?.any Char.isDigit = false) :
    numeral? (digits ++ tail) =
      if tail.head? = some '.' ∧ tail.tail.takeWhile Char.isDigit ≠ [] ∧
        (tail.tail.dropWhile Char.isDigit).head?.any isWord = false then
        some (digits ++ '.' :: tail.tail.takeWhile Char.isDigit)
      else if tail.head? = some '.' ∧ tail.tail.head?.any isWord = true then
        some (digits ++ ['.'])
      else if tail.head?.any isWord = false then some digits
      else none := by
  obtain ⟨htake, hdrop⟩ := hdigits.span_eq htail
  rw [numeral?, htake, hdrop]

/-- The form of a number tells what follows the run of digits that it starts with. -/
lemma Numeral.eq_append (h : Numeral mid post) (htext : digits ++ tail = mid ++ post)
    (hdigits : IsDigits digits) (htail : tail.head?.any Char.isDigit = false) :
    (mid = digits ∧ tail.head?.any isWord = false) ∨
    (mid = digits ++ ['.'] ∧ tail = '.' :: post ∧ post.head?.any isWord = true) ∨
    ∃ decimals, IsDigits decimals ∧ mid = digits ++ '.' :: decimals ∧
      tail = '.' :: (decimals ++ post) ∧ post.head?.any isWord = false := by
  cases h with
  | whole hdigits' hpost =>
      obtain ⟨rfl, rfl⟩ := hdigits.append_inj hdigits' htail (any_isDigit_eq_false hpost) htext
      exact .inl ⟨rfl, hpost⟩
  | @pointed digits' _ hdigits' hpost =>
      rw [List.append_assoc] at htext
      obtain ⟨rfl, rfl⟩ := hdigits.append_inj hdigits' htail rfl htext
      exact .inr (.inl ⟨rfl, rfl, hpost⟩)
  | @decimal digits' decimals _ hdigits' hdecimals hpost =>
      rw [List.append_assoc] at htext
      obtain ⟨rfl, rfl⟩ := hdigits.append_inj hdigits' htail rfl htext
      exact .inr (.inr ⟨decimals, hdecimals, rfl, rfl, hpost⟩)

/-! ### The preferred number -/

/-- Behind a point, the number pattern goes on with further digits and an edge. -/
def decimalsEnd : Pattern := .inOrder [.greedy Char.isDigit, .boundary]

/-- With a point behind the digits, the number pattern prefers what it prefers behind the point. -/
lemma end?_number_of_point (hpre : pre.getLast?.any isWord = false) (hdigits : IsDigits digits)
    {d : Cursor} (hend : decimalsEnd.end? (.between (pre ++ digits ++ ['.']) tail) = some d) :
    number.end? (.between pre (digits ++ '.' :: tail)) = some d := by
  have hedge : Pattern.boundary.end? (.between pre (digits ++ '.' :: tail))
      = some (.between pre (digits ++ '.' :: tail)) :=
    Pattern.end?_boundary ((atEdge_before_word (hdigits.any_head? _)).2 hpre)
  have hpoint : (Pattern.optional (.char (· == '.'))).end? (.between (pre ++ digits) ('.' :: tail))
      = some (.between (pre ++ digits ++ ['.']) tail) := by
    have hchar := Pattern.end?_char (beq_self_eq_true '.') (pre ++ digits) tail
    rw [Pattern.optional, Pattern.end?, Pattern.ends, List.head?_append]
    exact congrArg (Option.or · _) hchar
  cases digits with
  | nil => exact absurd rfl hdigits.1
  | cons x digits =>
      obtain ⟨hx, hdigits⟩ := List.forall_mem_cons.1 hdigits.2
      have hdigit := Pattern.end?_char hx pre (digits ++ '.' :: tail)
      have hrun := Pattern.end?_greedy Char.isDigit (pre ++ [x]) (digits ++ '.' :: tail)
      rw [List.takeWhile_append_of_pos hdigits, List.dropWhile_append_of_pos hdigits,
        List.takeWhile_cons_of_neg (by decide), List.dropWhile_cons_of_neg (by decide),
        List.append_nil, ← List.append_cons] at hrun
      exact Pattern.end?_seq hedge (Pattern.end?_seq hdigit
        (Pattern.end?_seq hrun (Pattern.end?_seq hpoint hend)))

/-- Behind the point, all further digits are preferred if no word goes on behind them. -/
lemma end?_decimalsEnd_of_isDigits (hdecimals : IsDigits decimals)
    (hpost : post.head?.any isWord = false) (pre : List Char) :
    decimalsEnd.end? (.between pre (decimals ++ post))
      = some (.between (pre ++ decimals) post) := by
  have hrun := Pattern.end?_greedy Char.isDigit pre (decimals ++ post)
  obtain ⟨htake, hdrop⟩ := hdecimals.span_eq (any_isDigit_eq_false hpost)
  rw [htake, hdrop] at hrun
  have hedge := Pattern.end?_boundary
    ((atEdge_behind_word (hdecimals.any_getLast? pre)).2 hpost)
  exact Pattern.end?_seq hrun (Pattern.end?_seq hedge rfl)

/-- Otherwise all of them are given back, if a word starts behind the point. -/
lemma end?_decimalsEnd_of_word (hpre : pre.getLast?.any isWord = false)
    (htail : tail.head?.any isWord = true)
    (hno : ¬ (tail.takeWhile Char.isDigit ≠ [] ∧
      (tail.dropWhile Char.isDigit).head?.any isWord = false)) :
    decimalsEnd.end? (.between pre tail) = some (.between pre tail) := by
  have hnothing : decimalsEnd.Matches pre [] tail :=
    ⟨[], [], rfl, by simp [Pattern.Matches], [], [], rfl,
      ⟨rfl, by simpa using (atEdge_behind_other hpre).2 htail⟩, rfl⟩
  have hend := Pattern.end?_of_unique hnothing (fun {mid post} htext hmatches => ?_)
  · simpa using hend
  · -- an edge behind some of the digits would be behind all of them
    obtain ⟨decimals, m, rfl, hdecimals, m₁, m₂, rfl, ⟨rfl, hedge⟩, rfl⟩ := hmatches
    by_contra hne
    have hrun : IsDigits decimals := ⟨by simpa using hne, hdecimals⟩
    have hpost : post.head?.any isWord = false := by
      rw [atEdge_behind_word (hrun.any_getLast? pre)] at hedge
      simpa using hedge
    obtain ⟨htake, hdrop⟩ := hrun.span_eq (any_isDigit_eq_false hpost)
    have htext : tail = decimals ++ post := by simpa using htext
    rw [htext, htake, hdrop] at hno
    exact hno ⟨hrun.1, hpost⟩

/-- **Which number is preferred.** At a run of digits that no word leads up to, the number pattern
matches as much as the rule says, or it does not match. -/
theorem rel_end?_number (hpre : pre.getLast?.any isWord = false)
    (hrest : rest.head?.any Char.isDigit = true) :
    Option.Rel (fun mid d => mid ≠ [] ∧ ∃ post, rest = mid ++ post ∧ d = .between (pre ++ mid) post)
      (numeral? rest) (number.end? (.between pre rest)) := by
  obtain ⟨digits, tail, rfl, hdigits, htail⟩ := exists_isDigits hrest
  rw [numeral?_append hdigits htail]
  split_ifs with hdecimal hpointed hwhole
  · obtain ⟨hpoint, hne, hbehind⟩ := hdecimal
    obtain ⟨tail, rfl⟩ := List.head?_eq_some_iff.1 hpoint
    have hdecimals : IsDigits (tail.takeWhile Char.isDigit) :=
      ⟨hne, fun c hc => List.mem_takeWhile_imp hc⟩
    have hend := end?_decimalsEnd_of_isDigits hdecimals hbehind (pre ++ digits ++ ['.'])
    rw [List.tail_cons, List.takeWhile_append_dropWhile] at hend
    rw [end?_number_of_point hpre hdigits hend]
    refine .some ⟨by simp, tail.dropWhile Char.isDigit, ?_, ?_⟩
    · simp [List.takeWhile_append_dropWhile]
    · simp
  · obtain ⟨hpoint, hword⟩ := hpointed
    obtain ⟨tail, rfl⟩ := List.head?_eq_some_iff.1 hpoint
    have hplace : (pre ++ digits ++ ['.']).getLast?.any isWord = false := by
      simpa using isWord_point
    have hend := end?_decimalsEnd_of_word hplace hword fun h => hdecimal ⟨hpoint, h⟩
    rw [List.tail_cons] at hend
    rw [end?_number_of_point hpre hdigits hend]
    exact .some ⟨by simp, tail, by simp, by simp⟩
  · -- the digits by themselves are all that is matched
    have hmatches := matches_number_iff.2 ⟨hpre, .whole hdigits hwhole⟩
    rw [Pattern.end?_of_unique hmatches]
    · exact .some ⟨hdigits.1, tail, rfl, rfl⟩
    · intro mid post htext hother
      rcases (matches_number_iff.1 hother).2.eq_append htext hdigits htail with
        ⟨rfl, -⟩ | ⟨-, rfl, hpost⟩ | ⟨decimals, hdecimals, -, rfl, hpost⟩
      · rfl
      · exact absurd ⟨rfl, hpost⟩ hpointed
      · obtain ⟨htake, hdrop⟩ := hdecimals.span_eq (any_isDigit_eq_false hpost)
        refine absurd ⟨rfl, ?_⟩ hdecimal
        rw [List.tail_cons, htake, hdrop]
        exact ⟨hdecimals.1, hpost⟩
  · -- nothing is matched
    have hnone : number.end? (.between pre (digits ++ tail)) = none := by
      rw [Option.eq_none_iff_forall_ne_some]
      intro d hd
      obtain ⟨mid, post, htext, hmatches, -⟩ := Pattern.exists_matches_of_end? hd
      rcases (matches_number_iff.1 hmatches).2.eq_append htext hdigits htail with
        ⟨-, hword⟩ | ⟨-, rfl, -⟩ | ⟨decimals, -, -, rfl, -⟩
      · exact hwhole hword
      · exact hwhole isWord_point
      · exact hwhole isWord_point
    rw [hnone]
    exact .none

end Highlight

end Folio
