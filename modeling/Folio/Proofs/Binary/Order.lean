import Mathlib.Tactic
import Folio.Binary.Basic
import Folio.Proofs.Binary.Rounding

/-!
The order of binary numbers, and arithmetic that respects it.

* `Binary.le_iff_place`, `Binary.lt_iff_place`: numbers compare as their places on the line do.
* `Binary.inUnits?`, `Format.roundPlace`: the exact value of a finite number, and the place that a
  value is rounded to. Sums, differences and doubles are rounded once.
* `Binary.sub_le_self`, `Binary.sub_le_sub`: so they respect the order.
-/

namespace Folio

namespace Binary

variable {f : Format} {x y z : Binary f}

/-! ### Comparison -/

lemma le_iff_place : x ≤ y ↔ ∃ p q, x.place? = some p ∧ y.place? = some q ∧ p ≤ q := by
  change x.le y = true ↔ _
  rw [le]
  cases x.place? <;> cases y.place? <;> simp

lemma lt_iff_place : x < y ↔ ∃ p q, x.place? = some p ∧ y.place? = some q ∧ p < q := by
  change x.lt y = true ↔ _
  rw [lt]
  cases x.place? <;> cases y.place? <;> simp

lemma exists_place_iff : (∃ p, x.place? = some p) ↔ x.isNaN = false := by
  rcases x with _ | ⟨negative, rank, h⟩
  · simp [place?, isNaN]
  · cases negative <;> simp [place?, isNaN]

lemma le_refl_iff : x ≤ x ↔ x.isNaN = false := by
  rw [le_iff_place, ← exists_place_iff]
  constructor
  · rintro ⟨p, -, hp, -⟩
    exact ⟨p, hp⟩
  · rintro ⟨p, hp⟩
    exact ⟨p, p, hp, hp, le_rfl⟩

lemma le_trans (hxy : x ≤ y) (hyz : y ≤ z) : x ≤ z := by
  obtain ⟨p, q, hp, hq, hpq⟩ := le_iff_place.1 hxy
  obtain ⟨q', r, hq', hr, hqr⟩ := le_iff_place.1 hyz
  obtain rfl : q = q' := Option.some.inj (hq.symm.trans hq')
  exact le_iff_place.2 ⟨p, r, hp, hr, hpq.trans hqr⟩

lemma lt_of_le_of_lt (hxy : x ≤ y) (hyz : y < z) : x < z := by
  obtain ⟨p, q, hp, hq, hpq⟩ := le_iff_place.1 hxy
  obtain ⟨q', r, hq', hr, hqr⟩ := lt_iff_place.1 hyz
  obtain rfl : q = q' := Option.some.inj (hq.symm.trans hq')
  exact lt_iff_place.2 ⟨p, r, hp, hr, hpq.trans_lt hqr⟩

lemma lt_of_lt_of_le (hxy : x < y) (hyz : y ≤ z) : x < z := by
  obtain ⟨p, q, hp, hq, hpq⟩ := lt_iff_place.1 hxy
  obtain ⟨q', r, hq', hr, hqr⟩ := le_iff_place.1 hyz
  obtain rfl : q = q' := Option.some.inj (hq.symm.trans hq')
  exact lt_iff_place.2 ⟨p, r, hp, hr, hpq.trans_le hqr⟩

lemma le_of_lt (h : x < y) : x ≤ y := by
  obtain ⟨p, q, hp, hq, hpq⟩ := lt_iff_place.1 h
  exact le_iff_place.2 ⟨p, q, hp, hq, hpq.le⟩

lemma lt_asymm (h : x < y) : ¬ y < x := by
  obtain ⟨p, q, hp, hq, hpq⟩ := lt_iff_place.1 h
  intro h'
  obtain ⟨q', p', hq', hp', hqp⟩ := lt_iff_place.1 h'
  obtain rfl : p = p' := Option.some.inj (hp.symm.trans hp')
  obtain rfl : q = q' := Option.some.inj (hq.symm.trans hq')
  exact hpq.not_gt hqp

/-- Of two numbers, the one that is not less is at least as great. -/
lemma not_lt_iff (hx : x.isNaN = false) (hy : y.isNaN = false) : ¬ x < y ↔ y ≤ x := by
  obtain ⟨p, hp⟩ := exists_place_iff.2 hx
  obtain ⟨q, hq⟩ := exists_place_iff.2 hy
  simp [lt_iff_place, le_iff_place, hp, hq]

/-- Only numbers compare. -/
lemma isNaN_of_le (h : x ≤ y) : x.isNaN = false ∧ y.isNaN = false := by
  obtain ⟨p, q, hp, hq, -⟩ := le_iff_place.1 h
  exact ⟨exists_place_iff.1 ⟨p, hp⟩, exists_place_iff.1 ⟨q, hq⟩⟩

lemma isNaN_of_isFinite (h : x.isFinite = true) : x.isNaN = false := by
  cases x with
  | nan => simp [isFinite] at h
  | number => rfl

/-- The infinities are the ends of the line. -/
lemma place_bounds {p : Int} (h : x.place? = some p) : -(f.top : Int) ≤ p ∧ p ≤ f.top := by
  rcases x with _ | ⟨negative, rank, hrank⟩
  · simp [place?] at h
  · cases negative with
    | false =>
        obtain rfl := Option.some.inj h
        omega
    | true =>
        obtain rfl := Option.some.inj h
        omega

lemma isFinite_iff_place :
    x.isFinite = true ↔ ∃ p, x.place? = some p ∧ -(f.top : Int) < p ∧ p < f.top := by
  rcases x with _ | ⟨negative, rank, h⟩
  · simp [isFinite, place?]
  · cases negative <;> simp [isFinite, place?] <;> omega

lemma place_of_infinite {p : Int} (h : x.isFinite = false) (hp : x.place? = some p) :
    p ≤ -(f.top : Int) ∨ f.top ≤ p := by
  by_contra hin
  have hfinite : x.isFinite = true := isFinite_iff_place.2 ⟨p, hp, by omega, by omega⟩
  exact Bool.false_ne_true (h.symm.trans hfinite)

/-- What lies between two finite numbers is finite. -/
lemma isFinite_of_le_of_le (hx : x.isFinite = true) (hz : z.isFinite = true) (hxy : x ≤ y)
    (hyz : y ≤ z) : y.isFinite = true := by
  obtain ⟨p, hp, hlow, -⟩ := isFinite_iff_place.1 hx
  obtain ⟨r, hr, -, hhigh⟩ := isFinite_iff_place.1 hz
  obtain ⟨p', q, hp', hq, hpq⟩ := le_iff_place.1 hxy
  obtain ⟨q', r', hq', hr', hqr⟩ := le_iff_place.1 hyz
  obtain rfl : p = p' := Option.some.inj (hp.symm.trans hp')
  obtain rfl : q = q' := Option.some.inj (hq.symm.trans hq')
  obtain rfl : r = r' := Option.some.inj (hr.symm.trans hr')
  exact isFinite_iff_place.2 ⟨q, hq, by omega, by omega⟩

/-! ### Exact values -/

/-- The exact value of a finite number, in units. -/
def inUnits? : Binary f → Option Int
  | .nan => none
  | .number negative rank _ => if rank < f.top then some (signedUnits f negative rank) else none

lemma exists_inUnits_iff : (∃ a, x.inUnits? = some a) ↔ x.isFinite = true := by
  cases x with
  | nan => simp [inUnits?, isFinite]
  | number negative rank h => simp [inUnits?, isFinite]

end Binary

/-- The place that a whole number of units is rounded to, with its sign. -/
def Format.roundPlace (f : Format) (n : Int) : Int :=
  if n < 0 then -(f.roundRank n.natAbs 1 : Int) else f.roundRank n.natAbs 1

namespace Format

variable (f : Format)

@[simp] lemma roundRank_zero : f.roundRank 0 1 = 0 := by
  have hzero := f.roundRank_units (Nat.zero_le f.top)
  rwa [units_zero] at hzero

@[simp] lemma roundPlace_zero : f.roundPlace 0 = 0 := by
  simp [roundPlace]

lemma roundPlace_natCast (n : Nat) : f.roundPlace n = f.roundRank n 1 := by
  rw [roundPlace, if_neg (by omega), Int.natAbs_natCast]

lemma roundPlace_neg (n : Int) : f.roundPlace (-n) = -f.roundPlace n := by
  rcases Int.lt_trichotomy n 0 with hn | rfl | hn
  · rw [roundPlace, roundPlace, if_pos hn, if_neg (show ¬ -n < 0 by omega), Int.natAbs_neg,
      Int.neg_neg]
  · simp
  · rw [roundPlace, roundPlace, if_pos (show -n < 0 by omega), if_neg hn.not_gt, Int.natAbs_neg]

/-- **Rounding respects the order**, also across zero. -/
theorem roundPlace_mono : Monotone f.roundPlace := by
  have hrank : ∀ {a b : Nat}, a ≤ b → f.roundRank a 1 ≤ f.roundRank b 1 := fun hab =>
    f.roundRank_mono Nat.one_pos Nat.one_pos (Nat.mul_le_mul_right 1 hab)
  intro a b hab
  simp only [roundPlace]
  split_ifs with ha hb hb
  · have hle := hrank (show b.natAbs ≤ a.natAbs by omega)
    omega
  · omega
  · omega
  · have hle := hrank (show a.natAbs ≤ b.natAbs by omega)
    omega

end Format

namespace Binary

variable {f : Format} {x y z : Binary f} {a b c : Int}

/-- **A finite number is its own rounding.** -/
lemma place?_of_inUnits (h : x.inUnits? = some a) : x.place? = some (f.roundPlace a) := by
  rcases x with _ | ⟨negative, rank, hrank⟩
  · simp [inUnits?] at h
  · have hround := f.roundRank_units hrank
    rw [inUnits?] at h
    split at h
    · obtain rfl := Option.some.inj h
      cases negative with
      | false =>
          rw [place?, signedUnits, if_neg Bool.false_ne_true, Format.roundPlace_natCast, hround]
      | true =>
          rw [place?, signedUnits, if_pos rfl, Format.roundPlace_neg, Format.roundPlace_natCast,
            hround]
    · simp at h

/-- A whole number is less than another one if its rounding is. -/
lemma lt_of_roundPlace_lt (hx : x.place? = some (f.roundPlace a))
    (hy : y.place? = some (f.roundPlace b)) (h : x < y) : a < b := by
  obtain ⟨p, q, hp, hq, hpq⟩ := lt_iff_place.1 h
  obtain rfl := Option.some.inj (hx.symm.trans hp)
  obtain rfl := Option.some.inj (hy.symm.trans hq)
  exact f.roundPlace_mono.reflect_lt hpq

/-- Finite numbers compare as their exact values do. -/
lemma inUnits_le (hx : x.inUnits? = some a) (hy : y.inUnits? = some b) (h : x ≤ y) : a ≤ b := by
  rcases x with _ | ⟨s, r, hr⟩
  · simp [inUnits?] at hx
  rcases y with _ | ⟨t, q, hq⟩
  · simp [inUnits?] at hy
  rw [inUnits?] at hx hy
  split at hx
  · split at hy
    · obtain rfl := Option.some.inj hx
      obtain rfl := Option.some.inj hy
      have hunits : ∀ {m n : Nat}, m ≤ n → f.units m ≤ f.units n :=
        fun hmn => f.units_strictMono.monotone hmn
      obtain ⟨p, p', hp, hp', hle⟩ := le_iff_place.1 h
      cases s <;> cases t <;> obtain rfl := Option.some.inj hp <;>
        obtain rfl := Option.some.inj hp'
      · have hrank := hunits (Int.ofNat_le.1 hle)
        simpa [signedUnits] using hrank
      · have hr : r = 0 := by omega
        have hq : q = 0 := by omega
        simp [signedUnits, hr, hq]
      · simp only [signedUnits, if_true, if_neg Bool.false_ne_true]
        omega
      · have hrank := hunits (show q ≤ r by omega)
        simpa [signedUnits] using hrank
    · simp at hy
  · simp at hx

lemma lt_iff_inUnits (hx : x.inUnits? = some a) (hy : y.inUnits? = some b) : x < y ↔ a < b := by
  constructor
  · exact lt_of_roundPlace_lt (place?_of_inUnits hx) (place?_of_inUnits hy)
  · intro hlt
    by_contra hge
    have hle := (not_lt_iff (isNaN_of_isFinite (exists_inUnits_iff.1 ⟨a, hx⟩))
      (isNaN_of_isFinite (exists_inUnits_iff.1 ⟨b, hy⟩))).1 hge
    exact hlt.not_ge (inUnits_le hy hx hle)

/-! ### Sums and differences -/

lemma inUnits?_neg (h : x.inUnits? = some a) : (-x).inUnits? = some (-a) := by
  rcases x with _ | ⟨negative, rank, hrank⟩
  · simp [inUnits?] at h
  · rw [inUnits?] at h
    split at h
    · rename_i hlt
      obtain rfl := Option.some.inj h
      change (neg (.number negative rank hrank)).inUnits? = _
      rw [neg, inUnits?, if_pos hlt]
      cases negative <;> simp [signedUnits]
    · simp at h

/-- The sum of finite numbers is rounded once. -/
lemma place?_add (hx : x.inUnits? = some a) (hy : y.inUnits? = some b) :
    (x + y).place? = some (f.roundPlace (a + b)) := by
  rcases x with _ | ⟨s, r, hr⟩
  · simp [inUnits?] at hx
  rcases y with _ | ⟨t, q, hq⟩
  · simp [inUnits?] at hy
  rw [inUnits?] at hx hy
  split at hx
  · split at hy
    · rename_i hrtop hqtop
      obtain rfl := Option.some.inj hx
      obtain rfl := Option.some.inj hy
      change (add (.number s r hr) (.number t q hq)).place? = _
      simp only [add, if_neg hrtop.ne, if_neg hqtop.ne]
      generalize signedUnits f s r + signedUnits f t q = sum
      by_cases hzero : sum = 0
      · rw [if_pos hzero, hzero, Format.roundPlace_zero]
        cases s && t <;> rfl
      · rw [if_neg hzero, rounded, Format.roundPlace]
        by_cases hneg : sum < 0
        · rw [decide_eq_true hneg, if_pos hneg, place?]
        · rw [decide_eq_false hneg, if_neg hneg, place?]
    · simp at hy
  · simp at hx

lemma place?_sub (hx : x.inUnits? = some a) (hy : y.inUnits? = some b) :
    (x - y).place? = some (f.roundPlace (a - b)) :=
  place?_add hx (inUnits?_neg hy)

/-- An infinity stays what it is when something finite is taken away. -/
lemma sub_eq_self_of_infinite (hx : x.isNaN = false) (hinf : x.isFinite = false)
    (hy : y.isFinite = true) : x - y = x := by
  rcases x with _ | ⟨s, r, hr⟩
  · simp [isNaN] at hx
  rcases y with _ | ⟨t, q, hq⟩
  · simp [isFinite] at hy
  have hrtop : r = f.top := by
    simp only [isFinite, decide_eq_false_iff_not] at hinf
    omega
  have hqtop : q ≠ f.top := by
    simp only [isFinite, decide_eq_true_eq] at hy
    exact hy.ne
  change add (.number s r hr) (.number (!t) q hq) = _
  simp only [add, if_pos hrtop, if_neg hqtop]

lemma place?_zero : (0 : Binary f).place? = some 0 := by
  change (ofNat 0 : Binary f).place? = some 0
  rw [ofNat, rounded, place?, Nat.zero_mul, Format.roundRank_zero]
  rfl

/-- What is not less than zero has no negative value. -/
lemma inUnits_nonneg (hx : x.inUnits? = some a) (h : ¬ x < 0) : 0 ≤ a := by
  rcases x with _ | ⟨negative, rank, hrank⟩
  · simp [inUnits?] at hx
  rw [inUnits?] at hx
  split at hx
  · obtain rfl := Option.some.inj hx
    cases negative with
    | false => simp [signedUnits]
    | true =>
        have hzero : rank = 0 := by
          by_contra hne
          exact h (lt_iff_place.2 ⟨-rank, 0, rfl, place?_zero, by omega⟩)
        simp [signedUnits, hzero]
  · simp at hx

/-- **Nothing grows** when something that is not negative is taken away. -/
theorem sub_le_self (hx : x.isNaN = false) (hy : y.isFinite = true) (hnonneg : ¬ y < 0) :
    x - y ≤ x := by
  cases hfinite : x.isFinite with
  | false =>
      rw [sub_eq_self_of_infinite hx hfinite hy]
      exact le_refl_iff.2 hx
  | true =>
      obtain ⟨a, ha⟩ := exists_inUnits_iff.2 hfinite
      obtain ⟨b, hb⟩ := exists_inUnits_iff.2 hy
      have hle : a - b ≤ a := by
        have hnonneg' := inUnits_nonneg hb hnonneg
        omega
      exact le_iff_place.2 ⟨_, _, place?_sub ha hb, place?_of_inUnits ha, f.roundPlace_mono hle⟩

/-- **Differences respect the order**: taking less away from more leaves more, also where that is an
infinity. -/
theorem sub_le_sub {x' y' : Binary f} (hx : x ≤ x') (hy : y' ≤ y) (hfinite : y.isFinite = true)
    (hfinite' : y'.isFinite = true) : x - y ≤ x' - y' := by
  obtain ⟨hnan, hnan'⟩ := isNaN_of_le hx
  obtain ⟨p, p', hp, hp', hle⟩ := le_iff_place.1 hx
  obtain ⟨b, hb⟩ := exists_inUnits_iff.2 hfinite
  obtain ⟨b', hb'⟩ := exists_inUnits_iff.2 hfinite'
  cases hxf : x.isFinite with
  | false =>
      rw [sub_eq_self_of_infinite hnan hxf hfinite]
      cases hxf' : x'.isFinite with
      | false =>
          rw [sub_eq_self_of_infinite hnan' hxf' hfinite']
          exact hx
      | true =>
          -- `x` is below a finite number, hence minus infinity
          obtain ⟨q, hq, -, hhigh⟩ := isFinite_iff_place.1 hxf'
          obtain rfl := Option.some.inj (hp'.symm.trans hq)
          obtain ⟨a', ha'⟩ := exists_inUnits_iff.2 hxf'
          have hend := place_of_infinite hxf hp
          have hlow := (place_bounds (place?_sub ha' hb')).1
          exact le_iff_place.2 ⟨p, _, hp, place?_sub ha' hb', by omega⟩
  | true =>
      obtain ⟨a, ha⟩ := exists_inUnits_iff.2 hxf
      cases hxf' : x'.isFinite with
      | false =>
          -- `x'` is above a finite number, hence infinity
          obtain ⟨q, hq, hlow, -⟩ := isFinite_iff_place.1 hxf
          obtain rfl := Option.some.inj (hp.symm.trans hq)
          have hend := place_of_infinite hxf' hp'
          have hhigh := (place_bounds (place?_sub ha hb)).2
          rw [sub_eq_self_of_infinite hnan' hxf' hfinite']
          exact le_iff_place.2 ⟨_, p', place?_sub ha hb, hp', by omega⟩
      | true =>
          obtain ⟨a', ha'⟩ := exists_inUnits_iff.2 hxf'
          have hexact : a - b ≤ a' - b' := by
            have hx' := inUnits_le ha ha' hx
            have hy' := inUnits_le hb' hb hy
            omega
          exact le_iff_place.2
            ⟨_, _, place?_sub ha hb, place?_sub ha' hb', f.roundPlace_mono hexact⟩

/-- A number that can be taken away twice is at most what is left after the first time. -/
lemma le_sub_of_inUnits (hx : x.inUnits? = some a) (hy : y.inUnits? = some b) (h : a ≤ b - a) :
    x ≤ y - x :=
  le_iff_place.2 ⟨_, _, place?_of_inUnits hx, place?_sub hy hx, f.roundPlace_mono h⟩

/-! ### Doubling -/

lemma place?_mul_two {x : Binary32} (hx : x.inUnits? = some a) :
    (x * (2 : Binary32)).place? = some (Format.single.roundPlace (a * 2)) := by
  rcases x with _ | ⟨negative, rank, hrank⟩
  · simp [inUnits?] at hx
  rw [inUnits?] at hx
  split at hx
  · rename_i hlt
    obtain rfl := Option.some.inj hx
    have htwo : (2 : Binary32) = .number false 0x40000000 (by decide +kernel) := by decide +kernel
    have hunits : Format.single.units 0x40000000 = 2 * Format.single.one := by decide +kernel
    have htop : 0x40000000 ≠ Format.single.top := by decide +kernel
    have hround : Format.single.roundRank (Format.single.units rank * (2 * Format.single.one))
        Format.single.one = Format.single.roundRank (Format.single.units rank * 2) 1 :=
      Format.single.roundRank_congr (by decide +kernel) Nat.one_pos (by ring)
    have hdouble : Format.single.roundPlace ((Format.single.units rank : Int) * 2)
        = Format.single.roundRank (Format.single.units rank * 2) 1 := by
      rw [← Format.roundPlace_natCast]
      push_cast
      rfl
    rw [htwo]
    change (mul (.number negative rank hrank) (.number false 0x40000000 _)).place? = _
    simp only [mul, if_neg hlt.ne, if_neg htop, Bool.xor_false, rounded, hunits, hround]
    cases negative with
    | false => rw [place?, signedUnits, if_neg Bool.false_ne_true, hdouble]
    | true => rw [place?, signedUnits, if_pos rfl, Int.neg_mul, Format.roundPlace_neg, hdouble]
  · simp at hx

/-! ### Multiples -/

/-- More of a length is not less of it, also where the product is too great for the format. -/
lemma mul_ofNat_le_mul_ofNat (hx : x.isFinite = true) (hpos : 0 < x) {m n : Nat} (h : m ≤ n) :
    x * (ofNat m : Binary f) ≤ x * (ofNat n : Binary f) := by
  obtain ⟨rank, hrank, rfl, hlt, hne⟩ : ∃ rank hrank, x = .number false rank hrank ∧
      rank < f.top ∧ rank ≠ 0 := by
    obtain ⟨p, q, hp, hq, hpq⟩ := lt_iff_place.1 hpos
    obtain rfl := Option.some.inj (place?_zero.symm.trans hp)
    rcases x with _ | ⟨negative, rank, hrank⟩
    · simp [isFinite] at hx
    · cases negative with
      | false =>
          obtain rfl := Option.some.inj hq
          exact ⟨rank, hrank, rfl, by simpa [isFinite] using hx, by omega⟩
      | true =>
          obtain rfl := Option.some.inj hq
          omega
  have hmn : f.roundRank (m * f.one) 1 ≤ f.roundRank (n * f.one) 1 :=
    f.roundRank_mono Nat.one_pos Nat.one_pos (Nat.mul_le_mul_right 1 (Nat.mul_le_mul_right f.one h))
  have hn := f.roundRank_le_top (n * f.one) 1
  change mul (.number false rank hrank) (ofNat m) ≤ mul (.number false rank hrank) (ofNat n)
  simp only [mul, ofNat, rounded, if_neg hlt.ne, if_neg hne, Bool.xor_false]
  generalize f.roundRank (m * f.one) 1 = b at hmn ⊢
  generalize f.roundRank (n * f.one) 1 = c at hmn hn ⊢
  by_cases hb : b = f.top
  · rw [if_pos hb, if_pos (show c = f.top by omega)]
    exact le_refl_iff.2 rfl
  · rw [if_neg hb]
    by_cases hc : c = f.top
    · rw [if_pos hc]
      exact le_iff_place.2 ⟨_, _, rfl, rfl, Int.ofNat_le.2 (f.roundRank_le_top _ _)⟩
    · rw [if_neg hc]
      have hunits : f.units rank * f.units b ≤ f.units rank * f.units c :=
        Nat.mul_le_mul_left _ (f.units_strictMono.monotone hmn)
      exact le_iff_place.2 ⟨_, _, rfl, rfl, Int.ofNat_le.2 (f.roundRank_mono (Nat.two_pow_pos _)
        (Nat.two_pow_pos _) (Nat.mul_le_mul_right f.one hunits))⟩

end Binary

end Folio
