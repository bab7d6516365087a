import FilterQuery.Proofs.Float64.Plain

/-!
# Whole numbers among the floating-point ones

In plain notation a whole number has neither a point nor an exponent, so that its text may also read
as an integer. It does iff the number is less than `2 ^ 63` in magnitude
(`isSome_signed64?_plain_iff`). The integer need not be the number: from `2 ^ 53` on the digits that
are not needed to read the number back are written as zeros. Up to there it is
(`toInt_eq_of_signed64?_plain`).
-/

namespace FilterQuery.Float64

open Text

/-- The value of a number that is whole. -/
def whole? : Float64 → Option Int
  | .finite negative rank =>
    if one ∣ units rank then some (signedInt negative (units rank / one)) else none
  | _ => none

/-- A number is whole iff its units are a multiple of those of one. -/
theorem whole?_eq_some_iff {x : Float64} {w : Int} :
    x.whole? = some w ↔ ∃ negative rank n,
      x = .finite negative rank ∧ units rank = n * one ∧ w = signedInt negative n := by
  constructor
  · intro h
    cases x with
    | nan => cases h
    | infinity negative => cases h
    | finite negative rank =>
      unfold whole? at h
      simp only at h
      split at h
      · next hdvd =>
        exact ⟨negative, rank, units rank / one, rfl, (Nat.div_mul_cancel hdvd).symm,
          (Option.some.inj h).symm⟩
      · cases h
  · rintro ⟨negative, rank, n, rfl, hunits, rfl⟩
    unfold whole?
    simp only
    rw [hunits, if_pos (Nat.dvd_mul_left one n), Nat.mul_div_cancel n one_pos]

/-- The number is whole and has a magnitude below the bound. -/
def WholeBelow (x : Float64) (bound : Nat) : Prop :=
  ∃ w, x.whole? = some w ∧ w.natAbs < bound

/-- What an integer that is read from the text of a number has to do with the number. -/
structure SpelledAs (x : Float64) (i : Int64) : Prop where
  text : signed64? x.plain = some i
  /-- The number is the nearest one to the integer. -/
  rounded : ∃ negative m, i.toInt = signedInt negative m ∧ x = ofRatio negative m 1
  exact : ∀ w, x.whole? = some w → w.natAbs ≤ 2 ^ 53 → i.toInt = w

/-! ## Integers that are rounded -/

/-- A decimal without an exponent is an integer that is rounded. -/
theorem ofDecimal_zero_exponent (negative : Bool) (m : Nat) :
    ofDecimal negative m 0 = ofRank negative (nearestRank (m * one) 1) := by
  have hvalue : m * 10 ^ (0 : Int).toNat * 1 = m * 10 ^ (-0 : Int).toNat := by simp
  exact ofDecimal_eq_ofRatio negative Nat.one_pos hvalue

/-- An integer is rounded to a whole number. -/
theorem one_dvd_units_nearestRank (m : Nat) : one ∣ units (nearestRank (m * one) 1) := by
  rw [one_eq]
  -- either the spacing divides one, and the integer is not rounded at all, or one divides the
  -- spacing
  rcases Nat.le_total (spacing (m * 2 ^ unitExponent) 1) unitExponent with hle | hle
  · have hdvd : 2 ^ spacing (m * 2 ^ unitExponent) 1 ∣ m * 2 ^ unitExponent :=
      Nat.dvd_trans (Nat.pow_dvd_pow 2 hle) (Nat.dvd_mul_left _ m)
    rw [units_nearestRank_of_dvd hdvd]
    exact Nat.dvd_mul_left _ m
  · rw [units_nearestRank]
    exact Nat.dvd_trans (Nat.pow_dvd_pow 2 hle) (Nat.dvd_mul_left _ _)

/-- An integer of at most 53 bits is rounded to itself. -/
theorem units_nearestRank_of_lt {m : Nat} (h : m < 2 ^ 53) :
    units (nearestRank (m * one) 1) = m * one := by
  refine units_nearestRank_of_dvd ?_
  rw [one_eq]
  refine Nat.dvd_trans (Nat.pow_dvd_pow 2 ?_) (Nat.dvd_mul_left _ m)
  unfold spacing
  rw [Nat.div_one]
  rcases Nat.eq_zero_or_pos m with rfl | hpos
  · rw [Nat.zero_mul, Nat.log2_zero]
    exact Nat.zero_le _
  · have hne : m * 2 ^ unitExponent ≠ 0 :=
      (Nat.mul_pos hpos (Nat.two_pow_pos unitExponent)).ne'
    have hlt : m * 2 ^ unitExponent < 2 ^ (53 + unitExponent) := by
      rw [Nat.pow_add]
      exact (Nat.mul_lt_mul_right (Nat.two_pow_pos unitExponent)).mpr h
    have hlog := (Nat.log2_lt hne).mpr hlt
    omega

/-- A power of two that an integer reaches is reached by what it is rounded to. -/
theorem two_pow_le_of_units_nearestRank {m n j : Nat}
    (h : units (nearestRank (m * one) 1) = n * one) (hm : 2 ^ j ≤ m) : 2 ^ j ≤ n := by
  have hlow : 2 ^ (j + unitExponent) ≤ m * one := by
    rw [Nat.pow_add, one_eq]
    exact Nat.mul_le_mul_right _ hm
  have hunits := two_pow_le_units_nearestRank hlow
  rw [h, Nat.pow_add, ← one_eq] at hunits
  exact Nat.le_of_mul_le_mul_right hunits one_pos

/-- A power of two that an integer does not exceed is not exceeded by what it is rounded to. -/
theorem le_two_pow_of_units_nearestRank {m n j : Nat}
    (h : units (nearestRank (m * one) 1) = n * one) (hm : m ≤ 2 ^ j) : n ≤ 2 ^ j := by
  have hhigh : m * one ≤ 2 ^ (j + unitExponent) := by
    rw [Nat.pow_add, one_eq]
    exact Nat.mul_le_mul_right _ hm
  have hunits := units_nearestRank_le_two_pow hhigh
  rw [h, Nat.pow_add, ← one_eq] at hunits
  exact Nat.le_of_mul_le_mul_right hunits one_pos

/-! ## The decimal of a whole number -/

/-- A whole number is found on the grid of the integers. -/
theorem onGrid?_zero (tie : Tie) {rank : Fin infinityRank} {n : Nat}
    (h : units rank = n * one) : (onGrid? tie rank 0).isSome = true := by
  have hratio : gridRatio (units rank) 0 = (n * one, one) := by
    have hpow : Nat.pow 10 0 = 1 := rfl
    rw [show (0 : Int) = .ofNat 0 from rfl, gridRatio, hpow, Nat.mul_one, h]
  have hread : ofDecimal false n 0 = .finite false rank := by
    rw [ofDecimal_zero_exponent, ← h, nearestRank_units]
    exact ofRank_of_lt false rank.isLt
  unfold onGrid?
  rw [hratio]
  simp only [Nat.mul_div_cancel n one_pos]
  rw [Option.isSome_map, List.find?_isSome]
  refine ⟨n, ?_, beq_iff_eq.mpr hread⟩
  split <;> simp

/-- A whole number has its first digit in front of the point. -/
theorem leadingExponent_nonneg {n : Nat} (hn : 0 < n) : 0 ≤ leadingExponent (n * one) := by
  have hpow : Nat.pow 10 400 = 10 ^ decimalLimit := by decide +kernel
  have hquotient : n * one * 10 ^ decimalLimit / one = n * 10 ^ decimalLimit := by
    rw [Nat.mul_right_comm, Nat.mul_div_cancel _ one_pos]
  -- the quotient has more digits than the limit, for the integer adds some to the zeros
  have hlength : ¬ (Nat.toDigits 10 (n * 10 ^ decimalLimit)).length ≤ decimalLimit := by
    rw [Nat.length_toDigits_le_iff (by decide) (by decide), Nat.not_lt]
    exact Nat.le_mul_of_pos_left _ hn
  unfold leadingExponent
  rw [hpow, hquotient]
  unfold decimalLimit at hlength ⊢
  omega

/-- The decimal of a whole number does not go behind the point, unless it is the exact expansion. -/
theorem shortest_cases_of_whole (tie : Tie) {rank : Fin infinityRank} {n : Nat} (hn : 0 < n)
    (h : units rank = n * one) :
    shortest tie rank = exactDecimal rank ∨ 0 ≤ (shortest tie rank).exponent := by
  have hlead := leadingExponent_nonneg hn
  rw [← h] at hlead
  unfold shortest
  simp only
  generalize leadingExponent (units rank) = lead at hlead ⊢
  generalize hgrids : ((List.range 17).map fun (i : Nat) => lead - i) = grids
  cases hfind : grids.findSome? (onGrid? tie rank) with
  | none => exact .inl rfl
  | some d =>
    right
    show 0 ≤ d.exponent
    obtain ⟨before, exponent, after, hsplit, hd, hbefore⟩ := List.findSome?_eq_some_iff.mp hfind
    rw [(ofDecimal_of_onGrid? hd).1]
    refine Int.not_lt.mp fun hneg => ?_
    -- the grids are searched from the coarsest to the finest
    have hdecreasing : grids.Pairwise (· > ·) := by
      rw [← hgrids, List.pairwise_map]
      exact List.pairwise_lt_range.imp fun hlt => by omega
    have hzero : (0 : Int) ∈ grids := by
      have hmem : exponent ∈ grids := by simp [hsplit]
      rw [← hgrids] at hmem ⊢
      obtain ⟨i, hi, hexponent⟩ := List.mem_map.mp hmem
      rw [List.mem_range] at hi
      refine List.mem_map.mpr ⟨lead.toNat, List.mem_range.mpr ?_, ?_⟩ <;> omega
    -- the grid of the integers comes before any finer one, and the number is on it
    rw [hsplit] at hzero hdecreasing
    rcases List.mem_append.mp hzero with hmem | hmem
    · have hsome := onGrid?_zero tie h
      rw [hbefore 0 hmem] at hsome
      cases hsome
    · rcases List.mem_cons.mp hmem with rfl | hmem
      · omega
      · have hlater := (List.pairwise_cons.mp (List.pairwise_append.mp hdecreasing).2.1).1 0 hmem
        omega

/-! ## The digits of a whole number -/

/-- Multiplying by a power of ten puts zeros at the end. -/
theorem decimal_mul_pow {n : Nat} (hn : 0 < n) (k : Nat) :
    decimal (n * 10 ^ k) = decimal n ++ List.replicate k '0' := by
  induction k with
  | zero => simp
  | succ k ih =>
    have hpos : 0 < n * 10 ^ k := Nat.mul_pos hn (Nat.pow_pos (by decide))
    have hdigit := Nat.toDigits_append_toDigits (b := 10) (d := 0) (by decide) hpos (by decide)
    rw [List.replicate_succ', ← List.append_assoc, ← ih, Nat.pow_succ, ← Nat.mul_assoc,
      Nat.mul_comm (n * 10 ^ k)]
    exact hdigit.symm

/-- Zeros at the end are dropped, however many there are. -/
theorem rdropWhile_append_replicate (digits : List Char) (k : Nat) :
    (digits ++ List.replicate k '0').rdropWhile (· == '0') =
      digits.rdropWhile (· == '0') := by
  unfold List.rdropWhile
  rw [List.reverse_append, List.reverse_replicate,
    List.dropWhile_append_of_pos beq_of_mem_replicate]

/-- Zeros at the end are not significant. -/
theorem significant_mul_pow (coefficient k : Nat) (exponent : Int) :
    significant ⟨coefficient * 10 ^ k, exponent⟩ = significant ⟨coefficient, exponent + k⟩ := by
  rcases Nat.eq_zero_or_pos coefficient with rfl | hpos
  · rw [Nat.zero_mul]
    rfl
  · have hpos' : 0 < coefficient * 10 ^ k := Nat.mul_pos hpos (Nat.pow_pos (by decide))
    rw [significant_of_ne_zero hpos'.ne', significant_of_ne_zero hpos.ne']
    simp only
    rw [decimal_mul_pow hpos, rdropWhile_append_replicate, List.length_append,
      List.length_replicate]
    refine congrArg (Prod.mk _) ?_
    omega

/-- A whole number is written as its digits. -/
theorem positional_significant (m : Nat) :
    positional (significant ⟨m, 0⟩).1 (significant ⟨m, 0⟩).2 = decimal m := by
  rcases Nat.eq_zero_or_pos m with rfl | hpos
  · rfl
  · obtain ⟨k, hk⟩ := exists_rdropWhile_append (decimal m)
    have hlength := congrArg List.length hk
    rw [List.length_append, List.length_replicate] at hlength
    have hnonempty := List.length_pos_iff.mpr (decimal_ne_nil m)
    rw [significant_of_ne_zero hpos.ne']
    simp only [Int.add_zero]
    -- the zeros that were dropped are filled in again up to the point
    generalize (decimal m).rdropWhile (· == '0') = digits at hk hlength
    obtain ⟨n, hn⟩ := Nat.exists_eq_succ_of_ne_zero hnonempty.ne'
    rw [hn] at hlength ⊢
    show digits.take (n + 1) ++ List.replicate (n + 1 - digits.length) '0' ++
      positional.fraction (digits.drop (n + 1)) = _
    rw [List.take_of_length_le (by omega), List.drop_of_length_le (by omega),
      show n + 1 - digits.length = k by omega, hk]
    exact List.append_nil _

/-- **A whole number is written as the digits of an integer that is rounded to it.** -/
theorem exists_plain_eq_of_whole {x : Float64} {negative : Bool} {rank : Fin infinityRank}
    {n : Nat} (hx : x = .finite negative rank) (h : units rank = n * one) :
    ∃ m, x.plain = signed negative (decimal m) ∧ nearestRank (m * one) 1 = rank := by
  have hinteger : ∀ m, ofDecimal false m 0 = .finite false rank →
      nearestRank (m * one) 1 = rank := by
    intro m hm
    rw [ofDecimal_zero_exponent] at hm
    exact (eq_of_ofRank_eq_finite hm).2
  have hrank : nearestRank (n * one) 1 = rank := by
    rw [← h, nearestRank_units]
  have hread := ofDecimal_shortest .up rank
  have hplain := plain_of_eq_finite hx
  rcases Nat.eq_zero_or_pos n with rfl | hn
  · -- zero is on every grid, so it is not found on the one of the integers
    refine ⟨0, ?_, hrank⟩
    have hzero : rank = ⟨0, by decide⟩ := by
      refine Fin.ext ?_
      rw [← hrank, Nat.zero_mul, nearestRank_eq_zero (by decide)]
    have hnotation : ∀ negative, (zero negative).plain = signed negative (decimal 0) := by
      decide +kernel
    rw [hx, hzero]
    exact hnotation negative
  · -- the exact expansion has its digits behind the point as zeros, and any other decimal has none
    -- there
    rcases shortest_cases_of_whole .up hn h with hexact | hexponent
    · refine ⟨n, ?_, hrank⟩
      have hcoefficient : units rank * 5 ^ unitExponent = n * 10 ^ unitExponent := by
        rw [h, one_eq, Nat.mul_assoc, ← Nat.mul_pow]
      rw [hplain, hexact, exactDecimal_eq, hcoefficient, significant_mul_pow,
        Int.add_left_neg, positional_significant]
    · generalize shortest .up rank = d at hread hplain hexponent
      obtain ⟨coefficient, exponent⟩ := d
      obtain ⟨k, rfl⟩ := Int.eq_ofNat_of_zero_le hexponent
      refine ⟨coefficient * 10 ^ k, ?_, hinteger _ ?_⟩
      · rw [hplain, ← Int.zero_add (k : Int), ← significant_mul_pow, positional_significant]
      · rw [ofDecimal_mul_pow, Int.zero_add]
        exact hread

/-! ## Texts that read as integers -/

/-- A number whose text reads as an integer is what the integer is rounded to. -/
theorem exists_rank_of_signed64?_plain {x : Float64} {i : Int64}
    (h : signed64? x.plain = some i) :
    ∃ negative rank m, x = .finite negative rank ∧ nearestRank (m * one) 1 = rank ∧
      i.toInt = signedInt negative m := by
  obtain ⟨m, hm, hi⟩ := exists_of_signed64? h
  have hread := ofText?_plain x
  rw [ofText?_of_natural? hm, ofDecimal_zero_exponent] at hread
  have hx := Option.some.inj hread
  rcases Nat.lt_or_ge (nearestRank (m * one) 1) infinityRank with hlt | hle
  · rw [ofRank_of_lt _ hlt] at hx
    exact ⟨_, _, m, hx.symm, rfl, hi⟩
  · -- infinity is a word, and no integer
    rw [ofRank_of_le _ hle] at hx
    have hword : ∀ negative, signed64? (plain (.infinity negative)) = none := by decide
    rw [← hx, hword] at h
    cases h

/-- The text of `2 ^ 63` is that of a larger integer. -/
theorem signed64?_plain_of_two_pow (negative : Bool) {rank : Fin infinityRank}
    (h : units rank = 2 ^ 63 * one) : signed64? (plain (.finite negative rank)) = none := by
  have hrank : rank = ⟨1086 * binadeSize, by decide⟩ := by
    refine Fin.ext ?_
    rw [← nearestRank_units rank, h]
    decide +kernel
  have hnotation : ∀ negative,
      signed64? (plain (.finite negative ⟨1086 * binadeSize, by decide⟩)) = none := by
    decide +kernel
  rw [hrank]
  exact hnotation negative

/-- **The text of a number reads as an integer iff the number is whole and less than `2 ^ 63` in
magnitude.** -/
theorem isSome_signed64?_plain_iff {x : Float64} :
    (signed64? x.plain).isSome = true ↔ x.WholeBelow (2 ^ 63) := by
  constructor
  · intro h
    obtain ⟨i, hi⟩ := Option.isSome_iff_exists.mp h
    obtain ⟨negative, rank, m, rfl, hrank, hm⟩ := exists_rank_of_signed64?_plain hi
    obtain ⟨n, hn⟩ := one_dvd_units_nearestRank m
    rw [Nat.mul_comm one n] at hn
    -- the integer may reach the bound on the negative side, but then its number would be the bound
    have hbound : m ≤ 2 ^ 63 := by
      have hlow := Int64.le_toInt i
      have hhigh := Int64.toInt_lt i
      rw [← natAbs_signedInt negative m, ← hm]
      omega
    have hle := le_two_pow_of_units_nearestRank hn hbound
    rw [hrank] at hn
    refine ⟨signedInt negative n, whole?_eq_some_iff.mpr ⟨negative, rank, n, rfl, hn, rfl⟩, ?_⟩
    rw [natAbs_signedInt]
    refine Nat.lt_of_le_of_ne hle ?_
    rintro rfl
    rw [signed64?_plain_of_two_pow negative hn] at hi
    cases hi
  · rintro ⟨w, hw, hlt⟩
    obtain ⟨negative, rank, n, hx, hn, rfl⟩ := whole?_eq_some_iff.mp hw
    obtain ⟨m, hplain, hrank⟩ := exists_plain_eq_of_whole hx hn
    rw [natAbs_signedInt] at hlt
    rw [← hrank] at hn
    -- an integer from the bound on would be rounded to a number from the bound on
    have hm : m < 2 ^ 63 := by
      refine Nat.not_le.mp fun hle => ?_
      exact absurd (two_pow_le_of_units_nearestRank hn hle) (Nat.not_le.mpr hlt)
    obtain ⟨i, hi, -⟩ := exists_signedOfInt?_eq_some negative hm
    rw [hplain, signed64?_signed_decimal, hi]
    rfl

/-- **Up to `2 ^ 53` the integer is the number.** -/
theorem toInt_eq_of_signed64?_plain {x : Float64} {i : Int64} {w : Int}
    (h : signed64? x.plain = some i) (hw : x.whole? = some w) (hle : w.natAbs ≤ 2 ^ 53) :
    i.toInt = w := by
  obtain ⟨negative, rank, n, hx, hn, rfl⟩ := whole?_eq_some_iff.mp hw
  rw [natAbs_signedInt] at hle
  rcases Nat.lt_or_eq_of_le hle with hlt | rfl
  · obtain ⟨negative', rank', m, hx', hrank, hi⟩ := exists_rank_of_signed64?_plain h
    rw [hx] at hx'
    cases hx'
    rw [← hrank] at hn
    have hm : m < 2 ^ 53 := by
      refine Nat.not_le.mp fun hle => ?_
      exact absurd (two_pow_le_of_units_nearestRank hn hle) (Nat.not_le.mpr hlt)
    rw [units_nearestRank_of_lt hm] at hn
    rw [hi, Nat.eq_of_mul_eq_mul_right one_pos hn]
  · -- the bound itself is the only number that is left, and it is looked at
    have hrank : rank = ⟨1076 * binadeSize, by decide⟩ := by
      refine Fin.ext ?_
      rw [← nearestRank_units rank, hn]
      decide +kernel
    have hnotation : ∀ negative,
        (signed64? (plain (.finite negative ⟨1076 * binadeSize, by decide⟩))).map Int64.toInt =
          some (signedInt negative (2 ^ 53)) := by
      decide +kernel
    rw [hx, hrank] at h
    have hvalue := hnotation negative
    rw [h] at hvalue
    exact Option.some.inj hvalue

/-- **An integer that is read from the text of a number** is rounded to the number, and up to `2 ^
53` it is the number. -/
theorem spelledAs_of_signed64?_plain {x : Float64} {i : Int64}
    (h : signed64? x.plain = some i) : x.SpelledAs i := by
  obtain ⟨negative, rank, m, hx, hrank, hi⟩ := exists_rank_of_signed64?_plain h
  refine ⟨h, ⟨negative, m, hi, ?_⟩, fun w hw hle => toInt_eq_of_signed64?_plain h hw hle⟩
  unfold ofRatio
  rw [hx, hrank, ofRank_of_lt negative rank.isLt]

end FilterQuery.Float64
