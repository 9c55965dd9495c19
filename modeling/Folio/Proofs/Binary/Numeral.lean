import Mathlib.Data.List.TakeWhile
import Mathlib.Tactic
import Folio.Binary.Decimal
import Folio.Proofs.Binary.Order

/-!
The text of a finite number is a numeral (`Binary.isNumeral_text`): it has at least one character,
and all of them are digits, points or signs.
-/

namespace Folio

/-- The characters of decimal numbers. -/
def isNumeralChar (c : Char) : Bool := c.isDigit || c == '.' || c == '-'

/-- At least one character, and only those of decimal numbers. -/
structure IsNumeral (chars : List Char) : Prop where
  ne_nil : chars ≠ []
  all : ∀ c ∈ chars, isNumeralChar c = true

namespace IsNumeral

variable {chars chars' : List Char}

lemma append_of_all (h : IsNumeral chars) (h' : ∀ c ∈ chars', isNumeralChar c = true) :
    IsNumeral (chars ++ chars') :=
  ⟨by simp [h.ne_nil], fun c hc => (List.mem_append.1 hc).elim (h.all c) (h' c)⟩

lemma cons {c : Char} (hc : isNumeralChar c = true) (h : ∀ c ∈ chars, isNumeralChar c = true) :
    IsNumeral (c :: chars) :=
  ⟨List.cons_ne_nil c chars, List.forall_mem_cons.2 ⟨hc, h⟩⟩

end IsNumeral

/-! ### Digits -/

/-- Only zero is written with zeros alone. -/
lemma eq_zero_of_toDigits {n : Nat} (h : ∀ c ∈ Nat.toDigits 10 n, c = '0') : n = 0 := by
  have hzeros : ∀ chars : List Char, (∀ c ∈ chars, c = '0') → Nat.ofDigitChars 10 chars 0 = 0 := by
    intro chars hall
    induction chars with
    | nil => rfl
    | cons c chars ih =>
        have hc : c = '0' := hall c List.mem_cons_self
        rw [hc]
        exact ih fun d hd => hall d (List.mem_cons_of_mem c hd)
  rw [← Nat.ofDigitChars_ten_toDigits (n := n), hzeros _ h]

lemma isNumeralChar_of_mem_toDigits {n : Nat} {c : Char} (h : c ∈ Nat.toDigits 10 n) :
    isNumeralChar c = true := by
  have hdigit : c.isDigit = true := Nat.isDigit_of_mem_toDigits (by omega) (by omega) h
  simp [isNumeralChar, hdigit]

/-- Digits with zeros behind them or a point between them are a numeral, if they are not all
zero. -/
lemma Decimal.isNumeral_positional {d : Decimal} (h : d.digits ≠ 0) : IsNumeral d.positional := by
  obtain ⟨digits, power⟩ := d
  set kept := ((Nat.toDigits 10 digits).reverse.dropWhile (· == '0')).reverse with hkept
  have hzero : isNumeralChar '0' = true := rfl
  have hzeros : ∀ n, ∀ c ∈ List.replicate n '0', isNumeralChar c = true := fun n c hc =>
    List.eq_of_mem_replicate hc ▸ hzero
  have hall : ∀ c ∈ kept, isNumeralChar c = true := fun c hc =>
    isNumeralChar_of_mem_toDigits
      (List.mem_reverse.1 ((List.dropWhile_sublist _).mem (List.mem_reverse.1 hc)))
  have hne : kept ≠ [] := by
    intro hnil
    rw [hkept, List.reverse_eq_nil_iff, List.dropWhile_eq_nil_iff] at hnil
    exact h (eq_zero_of_toDigits fun c hc => by simpa using hnil c (List.mem_reverse.2 hc))
  have hkeptNumeral : IsNumeral kept := ⟨hne, hall⟩
  rw [Decimal.positional]
  simp only [← hkept]
  split
  · exact hkeptNumeral.append_of_all (hzeros _)
  · split
    · rename_i hplaces
      have hlead : IsNumeral (kept.take (kept.length - (-(power +
          ((Nat.toDigits 10 digits).length - kept.length : Nat))).toNat)) := by
        refine ⟨?_, fun c hc => hall c (List.mem_of_mem_take hc)⟩
        rw [ne_eq, List.take_eq_nil_iff, not_or]
        exact ⟨by omega, hne⟩
      refine hlead.append_of_all (List.forall_mem_cons.2 ⟨rfl, fun c hc => hall c ?_⟩)
      exact List.mem_of_mem_drop hc
    · refine .cons rfl (List.forall_mem_cons.2 ⟨rfl, fun c hc => ?_⟩)
      exact (List.mem_append.1 hc).elim (hzeros _ c) (hall c)

/-! ### The text of a number -/

namespace Binary

variable {f : Format}

lemma ne_zero_of_readsBack {rank digits scale : Nat} (hrank : rank ≠ 0)
    (h : readsBack f rank digits scale = true) : digits ≠ 0 := by
  rintro rfl
  have hzero : f.roundRank (0 * scale) (decimalUnit f) = 0 := by
    have hunit : 0 < decimalUnit f := Nat.pow_pos (by omega)
    rw [f.roundRank_congr hunit Nat.one_pos (by omega : 0 * scale * 1 = 0 * decimalUnit f),
      f.roundRank_zero]
  rw [readsBack, hzero, beq_iff_eq] at h
  exact hrank h.symm

lemma readsBack_of_neighbour {tie : Tie} {rank scale digits : Nat}
    (h : neighbour? f tie rank scale = some digits) : readsBack f rank digits scale = true := by
  unfold neighbour? at h
  extract_lets exact low twice upward near far at h
  split at h
  · rename_i hnear
    exact Option.some.inj h ▸ hnear
  · split at h
    · rename_i hfar
      exact Option.some.inj h ▸ hfar
    · cases h

/-- The digits of a number other than zero are not all zero. -/
lemma shortest_digits_ne_zero {rank : Nat} (hrank : rank ≠ 0) (tie : Tie) :
    (shortest f tie rank).digits ≠ 0 := by
  have hsearch : ∀ places, (searchGrids f tie rank places).digits ≠ 0 := by
    intro places
    induction places with
    | zero =>
        have hunits : 0 < f.units rank := by
          rw [← f.units_zero]
          exact f.units_strictMono (Nat.pos_of_ne_zero hrank)
        exact (Nat.mul_pos hunits (Nat.pow_pos (by omega))).ne'
    | succ places ih =>
        rw [searchGrids]
        split
        · rename_i digits hneighbour
          exact ne_zero_of_readsBack hrank (readsBack_of_neighbour hneighbour)
        · exact ih
  exact hsearch _

/-- **A finite number is written as a numeral.** -/
theorem isNumeral_text {x : Binary f} (h : x.isFinite = true) : IsNumeral x.text.toList := by
  cases x with
  | nan => cases h
  | number negative rank hrank =>
      have htop : rank ≠ f.top := (of_decide_eq_true h).ne
      have hmagnitude : IsNumeral (magnitudeText f .away rank) := by
        rw [magnitudeText, if_neg htop]
        split
        · exact .cons rfl (by simp)
        · rename_i hzero
          exact Decimal.isNumeral_positional (shortest_digits_ne_zero hzero .away)
      rw [text, String.toList_ofList]
      cases negative with
      | true => exact .cons rfl hmagnitude.all
      | false => exact hmagnitude

end Binary

end Folio
