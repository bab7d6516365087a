import FilterQuery.Float64.Rounding
import Mathlib.Tactic.Ring

/-!
# Rounding is a function of the value

Rounding is given by arithmetic on a numerator and a denominator. The statements here say what it
does in terms of the fraction alone:

* `nearestRank_congr`: equal fractions are rounded to the same number;
* `units_nearestRank`: the result is the fraction rounded to a multiple of the spacing in its
  binade, so what is such a multiple stays as it is (`nearestRank_units`), and rounding never
  crosses a power of two (`two_pow_le_units_nearestRank`, `units_nearestRank_le_two_pow`);
* `ofDecimal_eq_ofRatio`: the shortcuts for very large and very small decimals give what rounding
  would give, so that a decimal may be written with any exponent (`ofDecimal_mul_pow`).
-/

namespace FilterQuery.Float64

/-! ## Division rounded to even -/

/-- A quotient is rounded alike when both its parts are scaled. -/
theorem divEven_mul_left {k : Nat} (hk : 0 < k) (num den : Nat) :
    divEven (k * num) (k * den) = divEven num den := by
  have hquotient : k * num / (k * den) = num / den := Nat.mul_div_mul_left num den hk
  have hremainder : k * num % (k * den) = k * (num % den) := Nat.mul_mod_mul_left k num den
  -- both sides of the comparison with a half are scaled alike
  have hscale : 2 * (k * (num % den)) = k * (2 * (num % den)) := Nat.mul_left_comm _ _ _
  have hlt : k * (2 * (num % den)) < k * den ↔ 2 * (num % den) < den :=
    Nat.mul_lt_mul_left hk
  have heq : k * (2 * (num % den)) = k * den ↔ 2 * (num % den) = den := Nat.mul_right_inj hk.ne'
  unfold divEven
  simp only [hquotient, hremainder, hscale, hlt, heq]

/-- Rounding goes to the whole number below or to the one above. The two bounds are all that most
proofs need of it. -/
theorem div_le_divEven (num den : Nat) : num / den ≤ divEven num den := by
  unfold divEven
  simp only
  split <;> omega

theorem divEven_le (num den : Nat) : divEven num den ≤ num / den + 1 := by
  unfold divEven
  simp only
  split <;> omega

/-- What divides evenly is not rounded. -/
theorem divEven_mul_self (q : Nat) {den : Nat} (hden : 0 < den) : divEven (q * den) den = q := by
  unfold divEven
  simp [Nat.mul_div_cancel q hden, hden]

/-! ## Equal fractions -/

/-- The binade and the quotient in it are scaled alike, so a fraction need not be reduced. -/
theorem nearestRank_mul_left {k : Nat} (hk : 0 < k) (num den : Nat) :
    nearestRank (k * num) (k * den) = nearestRank num den := by
  have hquotient : k * num / (k * den) = num / den := Nat.mul_div_mul_left num den hk
  unfold nearestRank
  simp only [hquotient, Nat.mul_assoc]
  rw [divEven_mul_left hk]

/-- **Equal fractions are rounded to the same number.** -/
theorem nearestRank_congr {num den num' den' : Nat} (hden : 0 < den) (hden' : 0 < den')
    (h : num * den' = num' * den) : nearestRank num den = nearestRank num' den' := by
  -- both fractions are brought to the common denominator
  calc nearestRank num den = nearestRank (den' * num) (den' * den) :=
        (nearestRank_mul_left hden' num den).symm
    _ = nearestRank (den * num') (den * den') := by
        rw [Nat.mul_comm den' num, h, Nat.mul_comm num' den, Nat.mul_comm den' den]
    _ = nearestRank num' den' := nearestRank_mul_left hden num' den'

/-! ## Binades -/

/-- A binade has as many numbers as a significand of 52 bits behind its point tells apart. -/
theorem binadeSize_eq : binadeSize = 2 ^ 52 := by decide

/-- A rank that is given by a binade and a multiple of the spacing in it. -/
theorem units_add {binade q : Nat} (hlow : binade = 0 ∨ binadeSize ≤ q)
    (hhigh : q ≤ 2 * binadeSize) : units (binade * binadeSize + q) = q * 2 ^ binade := by
  have hpos : 0 < binadeSize := by decide
  have hdiv : (binade * binadeSize + q) / binadeSize = binade + q / binadeSize := by
    rw [Nat.add_comm, Nat.add_mul_div_right _ _ hpos, Nat.add_comm]
  have hmod : (binade * binadeSize + q) % binadeSize = q % binadeSize := by
    rw [Nat.add_comm, Nat.add_mul_mod_self_right]
  unfold units
  simp only [hdiv, hmod]
  -- A rank counts the numbers in front of its own. Those of a binade are evenly spaced, but below
  -- the first power of two there are two binades with the spacing of one unit.
  rcases Nat.lt_or_ge q binadeSize with hq | hq
  · -- below the first power of two, where ranks count units
    obtain rfl : binade = 0 := hlow.resolve_right (by omega)
    simp [Nat.div_eq_of_lt hq]
  · rcases Nat.lt_or_ge q (2 * binadeSize) with hq' | hq'
    · have hone : q / binadeSize = 1 := Nat.div_eq_of_lt_le (by omega) (by omega)
      have hrest : binadeSize + q % binadeSize = q := by
        rw [Nat.mod_eq_sub_div_mul, hone]
        omega
      rw [hone, if_neg (by omega), hrest, Nat.add_sub_cancel]
      rfl
    · -- the end of a binade is the start of the next one
      obtain rfl : q = 2 * binadeSize := by omega
      rw [Nat.mul_div_cancel _ hpos, Nat.mul_mod_left, if_neg (by omega), Nat.add_zero,
        show binade + 2 - 1 = binade + 1 by omega]
      show binadeSize * 2 ^ (binade + 1) = _
      rw [Nat.pow_succ]
      ring

/-- The exponent of the spacing of the binade that a fraction lies in, counted in units. -/
def spacing (num den : Nat) : Nat := (num / den).log2 - 52

/-- The rank is that of the binade and the place in it. -/
theorem nearestRank_eq (num den : Nat) :
    nearestRank num den =
      spacing num den * binadeSize + divEven num (den * 2 ^ spacing num den) := rfl

/-- A fraction lies in its binade: below the end of it, and above the start unless it is in the
first one. -/
theorem div_mul_two_pow_lt (num den : Nat) :
    num / (den * 2 ^ spacing num den) < 2 * binadeSize := by
  rw [← Nat.div_div_eq_div_mul, Nat.div_lt_iff_lt_mul (Nat.two_pow_pos _), binadeSize_eq,
    show 2 * 2 ^ 52 = 2 ^ 53 by decide, ← Nat.pow_add]
  refine Nat.lt_of_lt_of_le Nat.lt_log2_self (Nat.pow_le_pow_right (by decide) ?_)
  unfold spacing
  omega

theorem le_div_mul_two_pow {num den : Nat} (h : spacing num den ≠ 0) :
    binadeSize ≤ num / (den * 2 ^ spacing num den) := by
  have hlog : 52 + spacing num den = (num / den).log2 := by
    unfold spacing at h ⊢
    omega
  -- the spacing is more than a unit, so the fraction has units to count
  have hne : num / den ≠ 0 := by
    intro hzero
    rw [hzero, Nat.log2_zero] at hlog
    omega
  rw [← Nat.div_div_eq_div_mul, Nat.le_div_iff_mul_le (Nat.two_pow_pos _), binadeSize_eq,
    ← Nat.pow_add, hlog]
  exact Nat.log2_self_le hne

/-- **What a fraction is rounded to**, in units: a multiple of the spacing of its binade. -/
theorem units_nearestRank (num den : Nat) :
    units (nearestRank num den) =
      divEven num (den * 2 ^ spacing num den) * 2 ^ spacing num den := by
  have hlow := div_le_divEven num (den * 2 ^ spacing num den)
  have hhigh := divEven_le num (den * 2 ^ spacing num den)
  have hlt := div_mul_two_pow_lt num den
  rw [nearestRank_eq]
  refine units_add ?_ (by omega)
  rcases Nat.eq_zero_or_pos (spacing num den) with hzero | hpos
  · exact .inl hzero
  · exact .inr (Nat.le_trans (le_div_mul_two_pow hpos.ne') hlow)

/-- A multiple of the spacing stays as it is. -/
theorem units_nearestRank_of_dvd {num : Nat} (h : 2 ^ spacing num 1 ∣ num) :
    units (nearestRank num 1) = num := by
  obtain ⟨q, hq⟩ := h
  have hmul : num = q * (1 * 2 ^ spacing num 1) := by
    rw [Nat.one_mul, Nat.mul_comm]
    exact hq
  have hpos : 0 < 1 * 2 ^ spacing num 1 := by
    rw [Nat.one_mul]
    exact Nat.two_pow_pos _
  have hdiv := divEven_mul_self q hpos
  rw [← hmul] at hdiv
  rw [units_nearestRank, hdiv, Nat.mul_comm]
  exact hq.symm

/-- **Rounding keeps what is a floating-point number already.** -/
theorem nearestRank_units (rank : Nat) : nearestRank (units rank) 1 = rank := by
  have hpos : 0 < binadeSize := by decide
  have hmod := Nat.mod_lt rank hpos
  have hsplit : binadeSize * (rank / binadeSize) + rank % binadeSize = rank :=
    Nat.div_add_mod rank binadeSize
  unfold units
  simp only
  split
  · -- below the first power of two a rank is the number of its units
    next hzero =>
    have hlt : rank < 2 ^ 52 := binadeSize_eq ▸ (Nat.div_eq_zero_iff_lt hpos).mp hzero
    have hspacing : spacing rank 1 = 0 := by
      unfold spacing
      rw [Nat.div_one]
      rcases Nat.eq_zero_or_pos rank with rfl | hrank
      · rfl
      · have hlog := (Nat.log2_lt hrank.ne').mpr hlt
        omega
    have hexact := divEven_mul_self rank Nat.one_pos
    rw [nearestRank_eq, hspacing, Nat.zero_mul, Nat.zero_add, Nat.pow_zero, Nat.mul_one]
    rw [Nat.mul_one] at hexact
    exact hexact
  · next hbinade =>
    obtain ⟨b, hb⟩ := Nat.exists_eq_succ_of_ne_zero hbinade
    rw [hb] at hsplit ⊢
    -- `q` is the significand with its leading bit, and `b` is the exponent of the spacing
    generalize hq : binadeSize + rank % binadeSize = q
    show nearestRank (q * 2 ^ b) 1 = rank
    have hspacing : spacing (q * 2 ^ b) 1 = b := by
      have hlog : (q * 2 ^ b).log2 = 52 + b := by
        have hne : q * 2 ^ b ≠ 0 := Nat.mul_ne_zero (by omega) (Nat.two_pow_pos b).ne'
        refine (Nat.log2_eq_iff hne).mpr ⟨?_, ?_⟩
        · rw [Nat.pow_add, ← binadeSize_eq]
          exact Nat.mul_le_mul_right _ (by omega)
        · rw [show 52 + b + 1 = 53 + b by omega, Nat.pow_add,
            show 2 ^ 53 = 2 * binadeSize by decide]
          exact (Nat.mul_lt_mul_right (Nat.two_pow_pos b)).mpr (by omega)
      unfold spacing
      rw [Nat.div_one, hlog]
      omega
    rw [nearestRank_eq, hspacing, Nat.one_mul, divEven_mul_self q (Nat.two_pow_pos b), ← hq]
    rw [Nat.mul_succ] at hsplit
    rw [Nat.mul_comm]
    omega

/-! ## Powers of two -/

/-- Rounding does not go below a power of two. -/
theorem two_pow_le_units_nearestRank {num j : Nat} (h : 2 ^ j ≤ num) :
    2 ^ j ≤ units (nearestRank num 1) := by
  rcases Nat.eq_zero_or_pos (spacing num 1) with hzero | hpos
  · rw [units_nearestRank_of_dvd (by simp [hzero])]
    exact h
  · have hlow := Nat.le_trans (le_div_mul_two_pow hpos.ne') (div_le_divEven num _)
    have hne : num ≠ 0 := fun hnum => by simp [hnum] at h
    have hlog : j ≤ 52 + spacing num 1 := by
      have hj := (Nat.le_log2 hne).mpr h
      unfold spacing at hpos ⊢
      rw [Nat.div_one] at hpos ⊢
      omega
    -- a power of two that is passed is at most the start of the binade
    calc 2 ^ j ≤ 2 ^ (52 + spacing num 1) := Nat.pow_le_pow_right (by decide) hlog
      _ = binadeSize * 2 ^ spacing num 1 := by rw [Nat.pow_add, binadeSize_eq]
      _ ≤ divEven num (1 * 2 ^ spacing num 1) * 2 ^ spacing num 1 := Nat.mul_le_mul_right _ hlow
      _ = units (nearestRank num 1) := (units_nearestRank num 1).symm

/-- Rounding does not go beyond a power of two. -/
theorem units_nearestRank_le_two_pow {num j : Nat} (h : num ≤ 2 ^ j) :
    units (nearestRank num 1) ≤ 2 ^ j := by
  rcases Nat.eq_zero_or_pos (spacing num 1) with hzero | hpos
  · rw [units_nearestRank_of_dvd (by simp [hzero])]
    exact h
  · -- a power of two that is not reached is at least the end of the binade
    rcases Nat.lt_or_eq_of_le h with hlt | rfl
    · have hhigh := divEven_le num (1 * 2 ^ spacing num 1)
      have hdiv := div_mul_two_pow_lt num 1
      have hne : num ≠ 0 := by
        rintro rfl
        exact absurd hpos (by decide)
      have hlog : 53 + spacing num 1 ≤ j := by
        have hj := (Nat.log2_lt hne).mpr hlt
        unfold spacing at hpos ⊢
        rw [Nat.div_one] at hpos ⊢
        omega
      calc units (nearestRank num 1)
          = divEven num (1 * 2 ^ spacing num 1) * 2 ^ spacing num 1 := units_nearestRank num 1
        _ ≤ 2 * binadeSize * 2 ^ spacing num 1 := Nat.mul_le_mul_right _ (by omega)
        _ = 2 ^ (53 + spacing num 1) := by
          rw [Nat.pow_add, show 2 ^ 53 = 2 * binadeSize by decide]
        _ ≤ 2 ^ j := Nat.pow_le_pow_right (by decide) hlog
    · refine Nat.le_of_eq (units_nearestRank_of_dvd (Nat.pow_dvd_pow 2 ?_))
      unfold spacing
      rw [Nat.div_one, Nat.log2_two_pow]
      omega

/-! ## Beyond the range of the format -/

/-- From some power of two on, everything is rounded to infinity. -/
theorem infinityRank_le_nearestRank {num e : Nat} (he : 2099 ≤ e) (h : 2 ^ e ≤ num) :
    infinityRank ≤ nearestRank num 1 := by
  have hne : num ≠ 0 := (Nat.lt_of_lt_of_le (Nat.two_pow_pos e) h).ne'
  have hlog := (Nat.le_log2 hne).mpr h
  have hspacing : 2047 ≤ spacing num 1 := by
    unfold spacing
    rw [Nat.div_one]
    omega
  rw [nearestRank_eq]
  exact Nat.le_add_right_of_le (Nat.mul_le_mul_right binadeSize hspacing)

/-- Up to some power of two, nothing is. The two bounds are not tight, which saves a look at the
last binade. -/
theorem nearestRank_lt_infinityRank {num e : Nat} (he : e ≤ 2097) (h : num < 2 ^ e) :
    nearestRank num 1 < infinityRank := by
  have hspacing : spacing num 1 ≤ 2044 := by
    unfold spacing
    rw [Nat.div_one]
    rcases Nat.eq_zero_or_pos num with rfl | hpos
    · simp
    · have hlog := (Nat.log2_lt hpos.ne').mpr h
      omega
  have hlast : divEven num (1 * 2 ^ spacing num 1) ≤ 2 * binadeSize :=
    Nat.le_trans (divEven_le _ _) (div_mul_two_pow_lt num 1)
  have hpos : 0 < binadeSize := by decide
  calc nearestRank num 1 = spacing num 1 * binadeSize + divEven num (1 * 2 ^ spacing num 1) :=
        nearestRank_eq num 1
    _ ≤ 2044 * binadeSize + 2 * binadeSize :=
        Nat.add_le_add (Nat.mul_le_mul_right _ hspacing) hlast
    _ < infinityRank := by
        unfold infinityRank
        omega

/-- What is less than half a unit is rounded to nothing. -/
theorem nearestRank_eq_zero {num den : Nat} (h : 2 * num < den) : nearestRank num den = 0 := by
  have hdiv : num / den = 0 := Nat.div_eq_of_lt (by omega)
  have hmod : num % den = num := Nat.mod_eq_of_lt (by omega)
  have hspacing : spacing num den = 0 := by
    unfold spacing
    rw [hdiv]
    rfl
  have heven : divEven num den = 0 := by
    unfold divEven
    simp only [hdiv, hmod]
    rw [if_pos (.inl h)]
  rw [nearestRank_eq, hspacing, Nat.zero_mul, Nat.zero_add, Nat.pow_zero, Nat.mul_one, heven]

/-- Ranks are those of finite numbers up to the rank of infinity. -/
theorem ofRank_of_le {rank : Nat} (negative : Bool) (h : infinityRank ≤ rank) :
    ofRank negative rank = .infinity negative := by
  unfold ofRank
  rw [dif_neg (Nat.not_lt.mpr h)]

theorem ofRank_of_lt {rank : Nat} (negative : Bool) (h : rank < infinityRank) :
    ofRank negative rank = .finite negative ⟨rank, h⟩ := by
  unfold ofRank
  rw [dif_pos h]

/-- The sign and the rank of a result are those that were asked for. -/
theorem eq_of_ofRank_eq_finite {negative negative' : Bool} {n : Nat} {rank : Fin infinityRank}
    (h : ofRank negative n = .finite negative' rank) : negative = negative' ∧ n = rank := by
  unfold ofRank at h
  split at h
  · cases h
    exact ⟨rfl, rfl⟩
  · cases h

/-! ## Decimals -/

/-- The unit is `2 ^ -1074`. -/
def unitExponent : Nat := 1074

/-- One is so many units. -/
theorem one_eq : one = 2 ^ unitExponent := by decide +kernel

theorem one_pos : 0 < one := by
  rw [one_eq]
  exact Nat.two_pow_pos unitExponent

/-- Whole numbers below some power of two are finite. -/
theorem isFinite_ofRatio_of_lt (negative : Bool) {n e : Nat} (he : e + unitExponent ≤ 2097)
    (h : n < 2 ^ e) : (ofRatio negative n 1).isFinite = true := by
  have hunits : n * one < 2 ^ (e + unitExponent) := by
    rw [one_eq, Nat.pow_add]
    exact Nat.mul_lt_mul_of_pos_right h (Nat.two_pow_pos unitExponent)
  unfold ofRatio
  rw [ofRank_of_lt negative (nearestRank_lt_infinityRank he hunits)]
  rfl

/-- **Equal fractions are the same number.** -/
theorem ofRatio_congr (negative : Bool) {num den num' den' : Nat} (hden : 0 < den)
    (hden' : 0 < den') (h : num * den' = num' * den) :
    ofRatio negative num den = ofRatio negative num' den' := by
  have hunits : num * one * den' = num' * one * den := by
    rw [Nat.mul_right_comm, h, Nat.mul_right_comm]
  unfold ofRatio
  rw [nearestRank_congr hden hden' hunits]

/-- Ten is more than three powers of two. -/
theorem two_pow_le_ten_pow (n : Nat) : 2 ^ (3 * n) ≤ 10 ^ n := by
  rw [Nat.pow_mul]
  exact Nat.pow_le_pow_left (by decide) n

/-- The exponents that count as too large are beyond the finite numbers. -/
theorem ofRatio_of_decimalLimit_lt (negative : Bool) {coefficient n : Nat}
    (hcoefficient : coefficient ≠ 0) (hn : decimalLimit < n) :
    ofRatio negative (coefficient * 10 ^ n) 1 = .infinity negative := by
  have hlimit : 401 ≤ n := hn
  have hexponent : 2099 ≤ 3 * n + unitExponent := by
    unfold unitExponent
    omega
  refine ofRank_of_le negative (infinityRank_le_nearestRank hexponent ?_)
  calc 2 ^ (3 * n + unitExponent) = 1 * 2 ^ (3 * n) * one := by
        rw [Nat.pow_add, Nat.one_mul, one_eq]
    _ ≤ coefficient * 10 ^ n * one := by
      refine Nat.mul_le_mul_right _ (Nat.mul_le_mul ?_ (two_pow_le_ten_pow n))
      exact Nat.one_le_iff_ne_zero.mpr hcoefficient

/-- The exponents that count as too small are nearest to zero. -/
theorem ofRatio_of_lt_decimalLimit (negative : Bool) {coefficient n : Nat}
    (hn : coefficient.log2 + decimalLimit < n) :
    ofRatio negative coefficient (10 ^ (n + 1)) = zero negative := by
  have hrank : nearestRank (coefficient * one) (10 ^ (n + 1)) = 0 := by
    refine nearestRank_eq_zero ?_
    have hlimit : coefficient.log2 + 400 < n := hn
    have hexponent : coefficient.log2 + 1 + (unitExponent + 1) ≤ 3 * (n + 1) := by
      unfold unitExponent
      omega
    calc 2 * (coefficient * one) = coefficient * 2 ^ (unitExponent + 1) := by
          rw [Nat.pow_succ, ← one_eq]
          ring
      _ < 2 ^ (coefficient.log2 + 1) * 2 ^ (unitExponent + 1) :=
        (Nat.mul_lt_mul_right (Nat.two_pow_pos _)).mpr Nat.lt_log2_self
      _ = 2 ^ (coefficient.log2 + 1 + (unitExponent + 1)) := (Nat.pow_add 2 _ _).symm
      _ ≤ 2 ^ (3 * (n + 1)) := Nat.pow_le_pow_right (by decide) hexponent
      _ ≤ 10 ^ (n + 1) := two_pow_le_ten_pow (n + 1)
  unfold ofRatio
  rw [hrank]
  rfl

/-- **A decimal is rounded as the fraction that it is**, whatever its exponent is. -/
theorem ofDecimal_eq_ofRatio (negative : Bool) {coefficient num den : Nat} {exponent : Int}
    (hden : 0 < den)
    (h : coefficient * 10 ^ exponent.toNat * den = num * 10 ^ (-exponent).toNat) :
    ofDecimal negative coefficient exponent = ofRatio negative num den := by
  unfold ofDecimal
  by_cases hzero : coefficient = 0
  · rw [if_pos hzero]
    rw [hzero, Nat.zero_mul, Nat.zero_mul, eq_comm, Nat.mul_eq_zero] at h
    obtain rfl : num = 0 := h.resolve_right (Nat.pow_pos (by decide)).ne'
    unfold ofRatio
    rw [Nat.zero_mul, nearestRank_eq_zero (by omega)]
    rfl
  · rw [if_neg hzero]
    -- with a positive exponent the decimal is a whole number, with a negative one a fraction of
    -- powers of ten
    cases exponent with
    | ofNat n =>
      have hvalue : coefficient * 10 ^ n * den = num * 1 := by simpa using h
      have hratio : ofRatio negative (coefficient * 10 ^ n) 1 = ofRatio negative num den :=
        ofRatio_congr negative Nat.one_pos hden hvalue
      show (if decimalLimit < n then _ else _) = _
      split
      · next hlimit => rw [← hratio, ofRatio_of_decimalLimit_lt negative hzero hlimit]
      · exact hratio
    | negSucc n =>
      have hvalue : coefficient * den = num * 10 ^ (n + 1) := by simpa using h
      have hratio : ofRatio negative coefficient (10 ^ (n + 1)) = ofRatio negative num den :=
        ofRatio_congr negative (Nat.pow_pos (by decide)) hden hvalue
      show (if coefficient.log2 + decimalLimit < n then _ else _) = _
      split
      · next hlimit => rw [← hratio, ofRatio_of_lt_decimalLimit negative hlimit]
      · exact hratio

/-- **A decimal may be written with a smaller exponent** and as many zeros behind it. -/
theorem ofDecimal_mul_pow (negative : Bool) (coefficient k : Nat) (exponent : Int) :
    ofDecimal negative (coefficient * 10 ^ k) exponent =
      ofDecimal negative coefficient (exponent + k) := by
  have hden : 0 < 10 ^ (-exponent).toNat := Nat.pow_pos (by decide)
  rw [ofDecimal_eq_ofRatio negative hden rfl]
  refine (ofDecimal_eq_ofRatio negative hden ?_).symm
  -- both are fractions of the same value, whichever of the exponents are negative
  have hexponents : (exponent + k).toNat + (-exponent).toNat =
      k + exponent.toNat + (-(exponent + k)).toNat := by omega
  rw [Nat.mul_assoc, ← Nat.pow_add, hexponents, Nat.pow_add, Nat.pow_add]
  ring

/-- The sign is put in front of the magnitude. -/
theorem ofDecimal_of_finite {coefficient : Nat} {exponent : Int} {rank : Fin infinityRank}
    (h : ofDecimal false coefficient exponent = .finite false rank) (negative : Bool) :
    ofDecimal negative coefficient exponent = .finite negative rank := by
  have hden : 0 < 10 ^ (-exponent).toNat := Nat.pow_pos (by decide)
  rw [ofDecimal_eq_ofRatio _ hden rfl] at h ⊢
  obtain ⟨-, hrank⟩ := eq_of_ofRank_eq_finite h
  unfold ofRatio
  rw [hrank]
  exact ofRank_of_lt negative rank.isLt

end FilterQuery.Float64
