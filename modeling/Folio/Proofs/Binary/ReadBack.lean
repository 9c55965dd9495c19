import Mathlib.Data.List.TakeWhile
import Mathlib.Tactic
import Folio.Proofs.Binary.Numeral

/-!
Numerals are read as the numbers they were written for.

* `Decimal.exists_layout_positional`: digits with a point write a decimal of the same value; only
  the zeros at the end get lost.
* `Binary.exists_readsBack_shortest`: the shortest decimal of a number rounds to that number.
* `Binary.ofText_text`: hence the text of a finite number is read as that number.
-/

namespace Folio

/-! ### Decimals -/

namespace Decimal

/-- The number that a decimal stands for. -/
def value (d : Decimal) : ℚ := d.digits * 10 ^ d.power

/-- The decimal that digits with a point stand for. -/
def ofPositional (chars : List Char) : Decimal :=
  let whole := chars.takeWhile (· != '.')
  let places := (chars.dropWhile (· != '.')).tail
  ⟨Nat.ofDigitChars 10 (whole ++ places) 0, -places.length⟩

/-- Digits, with or without a point, and the decimal that they write. -/
inductive Layout : List Char → Decimal → Prop where
  | whole {whole : List Char} (h : ∀ c ∈ whole, c.isDigit = true) :
    Layout whole ⟨Nat.ofDigitChars 10 whole 0, 0⟩
  | point {whole places : List Char} (h : ∀ c ∈ whole, c.isDigit = true)
    (h' : ∀ c ∈ places, c.isDigit = true) :
    Layout (whole ++ '.' :: places) ⟨Nat.ofDigitChars 10 (whole ++ places) 0, -places.length⟩

lemma notMem_of_isDigit {chars : List Char} {x : Char} (hx : x.isDigit = false)
    (h : ∀ c ∈ chars, c.isDigit = true) : x ∉ chars := fun hmem => by
  rw [h x hmem] at hx
  cases hx

namespace Layout

variable {chars : List Char} {d : Decimal}

/-- What digits with a point write is read off them. -/
lemma ofPositional_eq (h : Layout chars d) : ofPositional chars = d := by
  have hnoPoint {whole : List Char} (hdigit : ∀ c ∈ whole, c.isDigit = true) :
      ∀ c ∈ whole, (c != '.') = true := fun c hc =>
    bne_iff_ne.2 fun heq => notMem_of_isDigit rfl hdigit (heq ▸ hc)
  cases h with
  | whole hwhole =>
      rw [ofPositional, List.takeWhile_eq_self_iff.2 (hnoPoint hwhole),
        List.dropWhile_eq_nil_iff.2 (hnoPoint hwhole)]
      simp
  | point hwhole _ =>
      rw [ofPositional, List.takeWhile_append_of_pos (hnoPoint hwhole),
        List.dropWhile_append_of_pos (hnoPoint hwhole)]
      simp

lemma power_nonpos (h : Layout chars d) : d.power ≤ 0 := by
  cases h with
  | whole => exact le_rfl
  | point => exact Int.neg_nonpos_of_nonneg (Int.natCast_nonneg _)

lemma minus_notMem (h : Layout chars d) : '-' ∉ chars := by
  cases h with
  | whole hwhole => exact notMem_of_isDigit rfl hwhole
  | point hwhole hplaces =>
      simp [notMem_of_isDigit (x := '-') rfl hwhole, notMem_of_isDigit (x := '-') rfl hplaces]

end Layout

/-- The digits of a number are some digits with zeros behind them, which are a power of ten. -/
lemma exists_toDigits_eq (n : Nat) :
    ∃ zeros, let kept := ((Nat.toDigits 10 n).reverse.dropWhile (· == '0')).reverse
      (Nat.toDigits 10 n).length = kept.length + zeros ∧ (∀ c ∈ kept, c.isDigit = true) ∧
        n = Nat.ofDigitChars 10 kept 0 * 10 ^ zeros := by
  set digits := Nat.toDigits 10 n with hdigits
  have hsplit : digits = (digits.reverse.dropWhile (· == '0')).reverse
      ++ (digits.reverse.takeWhile (· == '0')).reverse := by
    rw [← List.reverse_append, List.takeWhile_append_dropWhile, List.reverse_reverse]
  have hzeros : (digits.reverse.takeWhile (· == '0')).reverse
      = List.replicate (digits.reverse.takeWhile (· == '0')).length '0' := by
    rw [List.eq_replicate_iff, List.length_reverse]
    refine ⟨rfl, fun c hc => ?_⟩
    have hzero := List.mem_takeWhile_imp (List.mem_reverse.1 hc)
    exact beq_iff_eq.1 hzero
  rw [hzeros] at hsplit
  refine ⟨(digits.reverse.takeWhile (· == '0')).length, ?_, fun c hc => ?_, ?_⟩
  · calc digits.length
        = ((digits.reverse.dropWhile (· == '0')).reverse
            ++ List.replicate (digits.reverse.takeWhile (· == '0')).length '0').length :=
          congrArg List.length hsplit
      _ = _ := by rw [List.length_append, List.length_replicate]
  · have hmem : c ∈ Nat.toDigits 10 n := by
      rw [← hdigits, hsplit]
      exact List.mem_append_left _ hc
    exact Nat.isDigit_of_mem_toDigits (by omega) (by omega) hmem
  · calc n = Nat.ofDigitChars 10 digits 0 := Nat.ofDigitChars_ten_toDigits.symm
      _ = Nat.ofDigitChars 10 ((digits.reverse.dropWhile (· == '0')).reverse
            ++ List.replicate (digits.reverse.takeWhile (· == '0')).length '0') 0 :=
          congrArg (Nat.ofDigitChars 10 · 0) hsplit
      _ = _ := by rw [Nat.ofDigitChars_append, Nat.ofDigitChars_replicate_zero, Nat.mul_comm]

lemma forall_isDigit_append {chars chars' : List Char} (h : ∀ c ∈ chars, c.isDigit = true)
    (h' : ∀ c ∈ chars', c.isDigit = true) : ∀ c ∈ chars ++ chars', c.isDigit = true := fun c hc =>
  (List.mem_append.1 hc).elim (h c) (h' c)

lemma forall_isDigit_zeros (n : Nat) : ∀ c ∈ List.replicate n '0', c.isDigit = true :=
  fun c hc => by
    rw [List.eq_of_mem_replicate hc]
    rfl

lemma ofDigitChars_zeros_append (n : Nat) (chars : List Char) :
    Nat.ofDigitChars 10 (List.replicate n '0' ++ chars) 0 = Nat.ofDigitChars 10 chars 0 := by
  rw [Nat.ofDigitChars_append, Nat.ofDigitChars_replicate_zero, Nat.mul_zero]

/-- **A decimal is written with digits and a point**, which write a decimal of the same value. -/
theorem exists_layout_positional (d : Decimal) :
    ∃ written, Layout d.positional written ∧ written.value = d.value := by
  obtain ⟨digits, power⟩ := d
  obtain ⟨zeros, hlength, hdigit, hdigits⟩ := exists_toDigits_eq digits
  rw [positional]
  generalize ((Nat.toDigits 10 digits).reverse.dropWhile (· == '0')).reverse = kept at *
  have hvalue : value ⟨digits, power⟩ = Nat.ofDigitChars 10 kept 0 * 10 ^ (power + zeros) := by
    rw [value, zpow_add₀ (by norm_num), zpow_natCast, mul_comm ((10 : ℚ) ^ power), ← mul_assoc]
    congr 1
    exact_mod_cast hdigits
  simp only [hvalue, hlength, Nat.add_sub_cancel_left]
  rcases Int.lt_or_le (power + zeros) 0 with hneg | hnonneg
  · obtain ⟨places, hplaces⟩ := Int.eq_ofNat_of_zero_le (show 0 ≤ -(power + zeros) by omega)
    rw [if_neg (not_le.2 hneg), show power + zeros = -places by omega, Int.neg_neg,
      Int.toNat_natCast]
    by_cases hinside : places < kept.length
    · -- the point stands between the digits
      rw [if_pos hinside]
      refine ⟨_, .point (fun c hc => hdigit c (List.mem_of_mem_take hc)) fun c hc =>
        hdigit c (List.mem_of_mem_drop hc), ?_⟩
      rw [value, List.take_append_drop, List.length_drop, Nat.sub_sub_self hinside.le]
    · -- zeros fill the places between the point and the digits
      rw [if_neg hinside]
      refine ⟨_, .point (forall_isDigit_zeros 1)
        (forall_isDigit_append (forall_isDigit_zeros (places - kept.length)) hdigit), ?_⟩
      rw [value, ofDigitChars_zeros_append, ofDigitChars_zeros_append, List.length_append,
        List.length_replicate, Nat.sub_add_cancel (not_lt.1 hinside)]
  · -- zeros fill the places between the digits and the point
    obtain ⟨places, hplaces⟩ := Int.eq_ofNat_of_zero_le hnonneg
    rw [if_pos hnonneg, hplaces, Int.toNat_natCast]
    refine ⟨_, .whole (forall_isDigit_append hdigit (forall_isDigit_zeros places)), ?_⟩
    rw [value, Nat.ofDigitChars_append, Nat.ofDigitChars_replicate_zero, zpow_zero, mul_one,
      zpow_natCast]
    push_cast
    ring

end Decimal

/-! ### Binary numbers -/

namespace Binary

variable {f : Format}

/-- The shortest decimal of a rank lies on a grid of whole places, and rounds to the rank. -/
lemma exists_readsBack_shortest {rank : Nat} (hrank : rank ≤ f.top) (tie : Tie) :
    ∃ places : Nat, (shortest f tie rank).power = places - (f.depth : Int) ∧
      readsBack f rank (shortest f tie rank).digits (10 ^ places) = true := by
  have hexact : readsBack f rank (f.units rank * decimalUnit f) (10 ^ 0) = true := by
    have hunit : 0 < decimalUnit f := Nat.pow_pos (by omega)
    rw [readsBack, f.roundRank_congr hunit Nat.one_pos
      (by ring : f.units rank * decimalUnit f * 10 ^ 0 * 1 = f.units rank * decimalUnit f),
      f.roundRank_units hrank, beq_iff_eq]
  have hsearch : ∀ n, ∃ places : Nat,
      (searchGrids f tie rank n).power = places - (f.depth : Int) ∧
        readsBack f rank (searchGrids f tie rank n).digits (10 ^ places) = true := by
    intro n
    induction n with
    | zero => exact ⟨0, by simp [searchGrids], hexact⟩
    | succ n ih =>
        rw [searchGrids]
        split
        · rename_i digits hneighbour
          exact ⟨n + 1, rfl, readsBack_of_neighbour hneighbour⟩
        · exact ih
  exact hsearch _

/-- A number far below the least magnitude is rounded to zero. -/
lemma roundRank_eq_zero {num den : Nat} (hden : 0 < den) (h : 2 * num < den) :
    f.roundRank num den = 0 := by
  by_contra hne
  have htop : 0 < f.top := (Nat.pos_of_ne_zero hne).trans_le (f.roundRank_le_top num den)
  have hone : 1 ≤ f.units 1 := by
    have hlt := f.units_strictMono Nat.zero_lt_one
    rwa [f.units_zero] at hlt
  have hmiddle := (f.succ_le_roundRank_iff hden htop).1 (Nat.pos_of_ne_zero hne)
  have hle : den ≤ (f.units 0 + f.units (0 + 1)) * den :=
    Nat.le_mul_of_pos_left den (hone.trans (Nat.le_add_left _ _))
  omega

/-- **A decimal without a positive power of ten is rounded once.** -/
theorem ofDecimal_eq_rounded (negative : Bool) (mantissa places : Nat) :
    (ofDecimal negative mantissa (-places) : Binary f)
      = rounded negative (mantissa * f.one) (10 ^ places) := by
  have hden : 0 < 10 ^ places := Nat.pow_pos (by omega)
  have hzero {num : Nat} (h : 2 * num < 10 ^ places) :
      (zero negative : Binary f) = rounded negative num (10 ^ places) := by
    have hround := roundRank_eq_zero (f := f) hden h
    simp only [rounded, zero, hround]
  rw [ofDecimal]
  split_ifs with hmantissa hlarge hsmall hwhole
  · rw [hmantissa, Nat.zero_mul]
    exact hzero (by omega)
  · exact absurd hlarge (by omega)
  · -- the mantissa has too few bits to reach the least magnitude
    refine hzero ?_
    have hbits : mantissa < 2 ^ (mantissa.log2 + 1) := Nat.lt_log2_self
    calc 2 * (mantissa * f.one) < 2 * (2 ^ (mantissa.log2 + 1) * f.one) := by
          have hone : 0 < f.one := Nat.pow_pos (by omega)
          exact Nat.mul_lt_mul_of_pos_left (Nat.mul_lt_mul_of_pos_right hbits hone) (by omega)
      _ = 2 ^ (mantissa.log2 + 1 + f.depth + 1) := by
          rw [show f.one = 2 ^ f.depth from rfl]
          ring
      _ ≤ 2 ^ places := Nat.pow_le_pow_right (by omega) (by omega)
      _ ≤ 10 ^ places := Nat.pow_le_pow_left (by omega) places
  · obtain rfl : places = 0 := by omega
    simp
  · simp

/-- The number nearest to digits with a point, with a sign. -/
def ofMagnitude (negative : Bool) (chars : List Char) : Binary f :=
  let d := Decimal.ofPositional chars
  ofDecimal negative d.digits d.power

/-- The number nearest to a numeral. -/
def ofText (text : String) : Binary f :=
  match text.toList with
  | '-' :: chars => ofMagnitude true chars
  | chars => ofMagnitude false chars

/-- The text of a magnitude is the layout of a decimal that rounds to it. -/
lemma exists_layout_magnitudeText {rank : Nat} (hrank : rank < f.top) (tie : Tie) :
    ∃ d, Decimal.Layout (magnitudeText f tie rank) d ∧
      ∀ negative, (ofDecimal negative d.digits d.power : Binary f)
        = .number negative rank hrank.le := by
  rw [magnitudeText, if_neg hrank.ne]
  split
  · rename_i hzero
    subst hzero
    exact ⟨_, .whole (Decimal.forall_isDigit_zeros 1), fun negative => rfl⟩
  · obtain ⟨places, hpower, hreads⟩ := exists_readsBack_shortest hrank.le tie
    obtain ⟨d, hlayout, hvalue⟩ := Decimal.exists_layout_positional (shortest f tie rank)
    refine ⟨d, hlayout, fun negative => ?_⟩
    obtain ⟨behind, hbehind⟩ : ∃ behind : Nat, d.power = -behind := by
      have hpower := hlayout.power_nonpos
      exact ⟨d.power.natAbs, by omega⟩
    have hexact : d.digits * f.one * decimalUnit f
        = (shortest f tie rank).digits * 10 ^ places * 10 ^ behind := by
      have hten : f.one * decimalUnit f = 10 ^ f.depth := (Nat.mul_pow 2 5 f.depth).symm
      rw [Decimal.value, Decimal.value, hbehind, hpower, zpow_neg, zpow_sub₀ (by norm_num),
        zpow_natCast, zpow_natCast, zpow_natCast] at hvalue
      have hrational : (d.digits * 10 ^ f.depth : ℚ)
          = (shortest f tie rank).digits * 10 ^ places * 10 ^ behind := by
        field_simp at hvalue
        linarith
      rw [Nat.mul_assoc, hten]
      exact_mod_cast hrational
    have hround : f.roundRank (d.digits * f.one) (10 ^ behind) = rank := by
      rw [f.roundRank_congr (Nat.pow_pos (by omega)) (Nat.pow_pos (by omega)) hexact]
      exact beq_iff_eq.1 hreads
    rw [hbehind, ofDecimal_eq_rounded]
    simp only [rounded, hround]

/-- **The text of a finite number is read as that number.** -/
theorem ofText_text {x : Binary f} (h : x.isFinite = true) : ofText x.text = x := by
  cases x with
  | nan => cases h
  | number negative rank hrank =>
      obtain ⟨d, hlayout, hread⟩ := exists_layout_magnitudeText (of_decide_eq_true h) .away
      have hmagnitude (negative : Bool) :
          ofMagnitude negative (magnitudeText f .away rank) = .number negative rank hrank := by
        rw [ofMagnitude, hlayout.ofPositional_eq]
        exact hread negative
      rw [text, ofText, String.toList_ofList]
      cases negative with
      | true => exact hmagnitude true
      | false =>
          rw [if_neg Bool.false_ne_true, List.nil_append]
          split
          · rename_i chars hchars
            refine absurd ?_ hlayout.minus_notMem
            rw [hchars]
            exact List.mem_cons_self
          · exact hmagnitude false

end Binary

end Folio
