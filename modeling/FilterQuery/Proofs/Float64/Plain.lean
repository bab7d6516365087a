import FilterQuery.Proofs.Float64.Rounding
import FilterQuery.Proofs.Inference
import FilterQuery.Proofs.Text.Signed
import Mathlib.Data.List.DropRight

/-!
# The plain notation reads back

A number in plain notation reads as that number (`ofText?_plain`). The argument goes through the
decimal that was chosen for it:

* the decimal is rounded to the number (`ofDecimal_shortest`), be it found on a grid, where this was
  tested, or the exact expansion;
* to drop the zeros at its end changes the exponent only (`ofDecimal_significant`);
* written positionally, with the point at any place, it reads as the same decimal, give or take
  zeros at either end (`ofText?_signed_positional`).
-/

namespace FilterQuery.Float64

open Text

/-! ## The decimal is rounded to the number -/

/-- What is found on a grid has been tested there. -/
theorem ofDecimal_of_onGrid? {tie : Tie} {rank : Fin infinityRank} {exponent : Int} {d : Decimal}
    (h : onGrid? tie rank exponent = some d) :
    d.exponent = exponent ∧ ofDecimal false d.coefficient d.exponent = .finite false rank := by
  unfold onGrid? at h
  obtain ⟨c, hfind, rfl⟩ := Option.map_eq_some_iff.mp h
  have hread := List.find?_some hfind
  exact ⟨rfl, eq_of_beq hread⟩

/-- The exact expansion of a number, with the unit in place of its value. -/
theorem exactDecimal_eq (rank : Nat) :
    exactDecimal rank = ⟨units rank * 5 ^ unitExponent, -(unitExponent : Int)⟩ := by
  have hpow : Nat.pow 5 1074 = 5 ^ unitExponent := by decide +kernel
  have hexponent : (-1074 : Int) = -(unitExponent : Int) := by decide +kernel
  unfold exactDecimal
  rw [hpow, hexponent]

/-- The exact expansion is rounded to the number, since it has its value. -/
theorem ofDecimal_exactDecimal (rank : Fin infinityRank) :
    ofDecimal false (exactDecimal rank).coefficient (exactDecimal rank).exponent =
      .finite false rank := by
  have hten : (10 : Nat) ^ unitExponent = 5 ^ unitExponent * one := by
    rw [one_eq, ← Nat.mul_pow]
  have hup : (-(unitExponent : Int)).toNat = 0 := by omega
  have hdown : (-(-(unitExponent : Int))).toNat = unitExponent := by omega
  -- the unit is one half to the power that ten is taken to, so a power of five remains of it
  have hvalue : units rank * 5 ^ unitExponent * 10 ^ (-(unitExponent : Int)).toNat * one =
      units rank * 10 ^ (-(-(unitExponent : Int))).toNat := by
    rw [hup, hdown, hten, Nat.pow_zero, Nat.mul_one, Nat.mul_assoc]
  rw [exactDecimal_eq]
  simp only
  rw [ofDecimal_eq_ofRatio false one_pos hvalue]
  unfold ofRatio
  rw [nearestRank_congr one_pos Nat.one_pos (Nat.mul_one (units rank * one)), nearestRank_units]
  exact ofRank_of_lt false rank.isLt

/-- The decimal of a number is found on one of the grids, or it is the exact expansion. -/
theorem shortest_cases (tie : Tie) (rank : Fin infinityRank) :
    shortest tie rank = exactDecimal rank ∨
      ∃ exponent, onGrid? tie rank exponent = some (shortest tie rank) := by
  unfold shortest
  simp only
  -- which grids are searched does not matter
  generalize (List.range 17).map _ = grids
  cases hgrid : List.findSome? (onGrid? tie rank) grids with
  | none => exact .inl rfl
  | some d =>
    obtain ⟨exponent, -, hd⟩ := List.exists_of_findSome?_eq_some hgrid
    exact .inr ⟨exponent, hd⟩

/-- **The decimal of a number is rounded to the number.** -/
theorem ofDecimal_shortest (tie : Tie) (rank : Fin infinityRank) :
    ofDecimal false (shortest tie rank).coefficient (shortest tie rank).exponent =
      .finite false rank := by
  rcases shortest_cases tie rank with heq | ⟨exponent, hgrid⟩
  · rw [heq]
    exact ofDecimal_exactDecimal rank
  · exact (ofDecimal_of_onGrid? hgrid).2

/-! ## Zeros at the end -/

/-- What is dropped at the end is zeros. -/
theorem exists_rdropWhile_append (digits : List Char) :
    ∃ k, digits = digits.rdropWhile (· == '0') ++ List.replicate k '0' := by
  refine ⟨(digits.rtakeWhile (· == '0')).length, ?_⟩
  have hzeros : List.replicate (digits.rtakeWhile (· == '0')).length '0' =
      digits.rtakeWhile (· == '0') := by
    refine (List.eq_replicate_of_mem fun c hc => ?_).symm
    exact eq_of_beq (List.mem_rtakeWhile_imp (p := (· == '0')) hc)
  rw [hzeros, List.rdropWhile_append_rtakeWhile]

/-- The significant digits of a decimal are those of its coefficient without the zeros at the
end. -/
theorem significant_of_ne_zero {d : Decimal} (h : d.coefficient ≠ 0) :
    significant d =
      ((decimal d.coefficient).rdropWhile (· == '0'),
        (decimal d.coefficient).length + d.exponent) := by
  unfold significant
  rw [if_neg h]
  rfl

/-- **The significant digits have the value of the decimal** when the point is put back. -/
theorem ofDecimal_significant (negative : Bool) (d : Decimal) :
    ofDecimal negative (Nat.ofDigitChars 10 (significant d).1 0)
        ((significant d).2 - (significant d).1.length) =
      ofDecimal negative d.coefficient d.exponent := by
  by_cases hzero : d.coefficient = 0
  · have hsignificant : significant d = ([], 0) := by
      unfold significant
      rw [if_pos hzero]
    rw [hsignificant, hzero]
    unfold ofDecimal
    rw [if_pos rfl]
    rfl
  · obtain ⟨k, hk⟩ := exists_rdropWhile_append (decimal d.coefficient)
    -- the zeros that are dropped are a power of ten
    have hvalue : d.coefficient =
        Nat.ofDigitChars 10 ((decimal d.coefficient).rdropWhile (· == '0')) 0 * 10 ^ k := by
      have hdigits := congrArg (fun s => Nat.ofDigitChars 10 s 0) hk
      simp only [Nat.ofDigitChars_append, Nat.ofDigitChars_replicate_zero] at hdigits
      rw [ofDigitChars_decimal] at hdigits
      rw [Nat.mul_comm]
      exact hdigits
    have hlength := congrArg List.length hk
    rw [List.length_append, List.length_replicate] at hlength
    rw [significant_of_ne_zero hzero]
    simp only
    generalize (decimal d.coefficient).rdropWhile (· == '0') = digits at hvalue hlength ⊢
    have hpoint : (digits.length + k : Nat) + d.exponent - digits.length = d.exponent + k := by
      omega
    rw [hlength, hpoint, ← ofDecimal_mul_pow, ← hvalue]

/-- Nothing but digits is significant. -/
theorem isDigit_of_mem_significant (d : Decimal) :
    ∀ c ∈ (significant d).1, c.isDigit = true := by
  by_cases hzero : d.coefficient = 0
  · unfold significant
    rw [if_pos hzero]
    simp
  · obtain ⟨k, hk⟩ := exists_rdropWhile_append (decimal d.coefficient)
    rw [significant_of_ne_zero hzero]
    intro c hc
    refine List.all_eq_true.mp (all_isDigit_decimal d.coefficient) c ?_
    rw [hk]
    exact List.mem_append_left _ hc

/-! ## Digits around a point -/

/-- Digits, and behind a point further digits if there are any. -/
theorem decimal?_append_fraction {whole fraction : List Char} (hne : whole ≠ [])
    (hwhole : ∀ c ∈ whole, c.isDigit = true) (hfraction : ∀ c ∈ fraction, c.isDigit = true) :
    decimal? (whole ++ positional.fraction fraction) =
      some (Nat.ofDigitChars 10 (whole ++ fraction) 0, -(fraction.length : Int)) := by
  -- the whole part ends at the point, or at the end of the text
  have hstop : StopsAt Char.isDigit (positional.fraction fraction) := by
    cases fraction with
    | nil => exact stopsAt_nil
    | cons c fraction => exact stopsAt_cons.mpr (by decide)
  have htake := takeWhile_append_of_stopsAt hwhole hstop
  have hdrop := dropWhile_append_of_stopsAt hwhole hstop
  have hempty : (whole ++ fraction).isEmpty = false := by simp [hne]
  unfold decimal?
  simp only [htake, hdrop]
  cases fraction with
  | nil =>
    rw [List.append_nil] at hempty
    simp [positional.fraction, hempty, exponent?]
  | cons c fraction =>
    have htake' := takeWhile_append_of_stopsAt hfraction stopsAt_nil
    have hdrop' := dropWhile_append_of_stopsAt hfraction stopsAt_nil
    rw [List.append_nil] at htake' hdrop'
    simp [positional.fraction, htake', hdrop', exponent?]

/-- What positional notation looks like: whole digits and a fraction, which have the value of the
digits up to zeros at the ends. There is no needless zero in front. -/
theorem exists_positional_eq {digits : List Char} (h : ∀ c ∈ digits, c.isDigit = true)
    (point : Int) :
    ∃ (whole fraction : List Char) (k : Nat),
      positional digits point = whole ++ positional.fraction fraction ∧
      whole ≠ [] ∧ (∀ c ∈ whole, c.isDigit = true) ∧ (∀ c ∈ fraction, c.isDigit = true) ∧
      (digits ≠ [] → whole = ['0'] ∨ whole.head? = digits.head?) ∧
      Nat.ofDigitChars 10 (whole ++ fraction) 0 = Nat.ofDigitChars 10 digits 0 * 10 ^ k ∧
      -(fraction.length : Int) + k = point - digits.length := by
  have hzeros : ∀ n, ∀ c ∈ List.replicate n '0', c.isDigit = true := by
    intro n c hc
    rw [List.eq_of_mem_replicate hc]
    decide
  -- zeros in front do not count
  have hfront : ∀ n, Nat.ofDigitChars 10 (List.replicate n '0' ++ digits) 0 =
      Nat.ofDigitChars 10 digits 0 := by
    intro n
    rw [Nat.ofDigitChars_append, Nat.ofDigitChars_replicate_zero, Nat.mul_zero]
  -- The point stands in front of the digits, or behind some of them, or zeros stand in between. In
  -- the second case `k` is the number of zeros that are filled in behind the digits.
  match point with
  | .ofNat 0 =>
    refine ⟨['0'], digits, 0, rfl, List.cons_ne_nil _ _, hzeros 1, h, fun _ => .inl rfl, ?_, ?_⟩
    · rw [Nat.pow_zero, Nat.mul_one]
      exact hfront 1
    · simp
  | .ofNat (n + 1) =>
    refine ⟨digits.take (n + 1) ++ List.replicate (n + 1 - digits.length) '0',
      digits.drop (n + 1), n + 1 - digits.length, rfl, ?_, ?_, ?_, ?_, ?_, ?_⟩
    · intro hnil
      have hlength := congrArg List.length hnil
      simp only [List.length_append, List.length_take, List.length_replicate,
        List.length_nil] at hlength
      omega
    · intro c hc
      rcases List.mem_append.mp hc with hc | hc
      · exact h c (List.mem_of_mem_take hc)
      · exact hzeros _ c hc
    · exact fun c hc => h c (List.mem_of_mem_drop hc)
    · intro hne
      obtain ⟨c, s, rfl⟩ := List.exists_cons_of_ne_nil hne
      exact .inr rfl
    · -- there are zeros between the digits and the point, or digits behind it, but never both
      rcases Nat.le_total digits.length (n + 1) with hle | hle
      · rw [List.take_of_length_le hle, List.drop_of_length_le hle, List.append_nil,
          Nat.ofDigitChars_append, Nat.ofDigitChars_replicate_zero, Nat.mul_comm]
      · rw [Nat.sub_eq_zero_of_le hle, List.replicate_zero, List.append_nil,
          List.take_append_drop, Nat.pow_zero, Nat.mul_one]
    · rw [List.length_drop, Int.ofNat_eq_natCast]
      omega
  | .negSucc n =>
    refine ⟨['0'], List.replicate (n + 1) '0' ++ digits, 0, rfl, List.cons_ne_nil _ _, hzeros 1,
      ?_, fun _ => .inl rfl, ?_, ?_⟩
    · intro c hc
      rcases List.mem_append.mp hc with hc | hc
      · exact hzeros _ c hc
      · exact h c hc
    · rw [Nat.pow_zero, Nat.mul_one, ← hfront (n + 1 + 1), List.replicate_succ (n := n + 1)]
      rfl
    · rw [List.length_append, List.length_replicate]
      omega

/-! ## Signs and words -/

/-- A digit is none of the other characters. -/
theorem ne_of_isDigit {c d : Char} (hc : c.isDigit = true) (hd : d.isDigit = false) : c ≠ d := by
  rintro rfl
  rw [hc] at hd
  cases hd

/-- What starts with a digit is none of the words for numbers that are not finite. -/
theorem not_caselessEq_of_isDigit {c d : Char} {s word : List Char} (hc : c.isDigit = true)
    (hd : d.toLower.isDigit = false) : caselessEq (c :: s) (d :: word) = false := by
  have hlower : c.toLower = c := by
    unfold Char.toLower
    split
    · next hupper =>
      have hdigit := Char.isDigit_iff_toNat.mp hc
      obtain ⟨hlow, -⟩ := hupper
      have hlow : 65 ≤ c.toNat := hlow
      have hhigh : c.toNat ≤ 57 := hdigit.2
      omega
    · rfl
  refine Bool.eq_false_iff.mpr fun heq => ?_
  obtain ⟨hfirst, -⟩ := List.cons.inj (caselessEq_iff.mp heq)
  rw [hlower] at hfirst
  exact ne_of_isDigit hc hd hfirst

/-- A numeral that has a digit behind its sign. -/
theorem ofText?_of_splitSign {s body : List Char} {negative : Bool} {c : Char}
    (hsign : splitSign s = (negative, c :: body)) (hc : c.isDigit = true) :
    ofText? s = (decimal? (c :: body)).map fun (coefficient, exponent) =>
      ofDecimal negative coefficient exponent := by
  unfold ofText?
  rw [hsign]
  simp only
  rw [show "nan".toList = ['n', 'a', 'n'] from rfl, show "inf".toList = ['i', 'n', 'f'] from rfl,
    show "infinity".toList = 'i' :: "nfinity".toList from rfl,
    not_caselessEq_of_isDigit hc (by decide), not_caselessEq_of_isDigit hc (by decide),
    not_caselessEq_of_isDigit hc (by decide)]
  rfl

/-- What reads as a whole number reads as the floating-point number nearest to it. -/
theorem ofText?_of_natural? {s : List Char} {n : Nat} (h : natural? (splitSign s).2 = some n) :
    ofText? s = some (ofDecimal (splitSign s).1 n 0) := by
  obtain ⟨hne, hdigits, hvalue⟩ := natural?_eq_some_iff.mp h
  have hnone : ∀ c ∈ ([] : List Char), c.isDigit = true := by simp
  have hdecimal := decimal?_append_fraction hne hdigits hnone
  rw [List.append_nil, hvalue] at hdecimal
  cases hbody : (splitSign s).2 with
  | nil => exact absurd hbody hne
  | cons c body =>
    rw [hbody] at hdigits hdecimal
    rw [ofText?_of_splitSign (Prod.ext rfl hbody) (hdigits c (by simp))]
    rw [show positional.fraction [] = [] from rfl, List.append_nil] at hdecimal
    rw [hdecimal]
    rfl

/-- **Positional notation reads as the decimal that it shows.** -/
theorem ofText?_signed_positional {digits : List Char} (h : ∀ c ∈ digits, c.isDigit = true)
    (negative : Bool) (point : Int) :
    ofText? (signed negative (positional digits point)) =
      some (ofDecimal negative (Nat.ofDigitChars 10 digits 0) (point - digits.length)) := by
  obtain ⟨whole, fraction, k, hpositional, hne, hwhole, hfraction, -, hvalue, hpoint⟩ :=
    exists_positional_eq h point
  have hdecimal := decimal?_append_fraction hne hwhole hfraction
  rw [hpositional]
  -- a digit behind the sign tells a numeral from the words for numbers that are not finite
  cases whole with
  | nil => exact absurd rfl hne
  | cons c whole =>
    have hc := hwhole c (by simp)
    rw [List.cons_append] at hdecimal ⊢
    rw [ofText?_of_splitSign (splitSign_signed negative _ hc) hc, hdecimal, Option.map_some]
    simp only
    rw [hvalue, ofDecimal_mul_pow, hpoint]

/-! ## Plain notation -/

/-- The last case of a case distinction, with the number left a variable. -/
theorem match_finite {α : Type} (nan : α) (infinity : Bool → α)
    (finite : Bool → Fin infinityRank → α) (x : Float64) (negative : Bool)
    (rank : Fin infinityRank) :
    x = .finite negative rank →
      (match x with
        | .nan => nan
        | .infinity negative => infinity negative
        | .finite negative rank => finite negative rank) = finite negative rank := by
  rintro rfl
  rfl

/-- The notation of a finite number. The equation is a hypothesis: were the number put in its place,
checking the proof would compute the digits. -/
theorem plain_of_eq_finite {x : Float64} {negative : Bool} {rank : Fin infinityRank}
    (hx : x = .finite negative rank) :
    x.plain = signed negative
      (positional (significant (shortest .up rank)).1 (significant (shortest .up rank)).2) := by
  obtain ⟨digits, hdigits⟩ : ∃ digits, significant (shortest .up rank) = digits := ⟨_, rfl⟩
  rw [hdigits]
  unfold plain
  refine (match_finite _ _ _ x negative rank hx).trans ?_
  rw [hdigits]

/-- **A number in plain notation reads as that number.** -/
theorem ofText?_plain (x : Float64) : ofText? x.plain = some x := by
  have hfinite : ∀ negative rank, x = .finite negative rank → ofText? x.plain = some x := by
    intro negative rank hx
    rw [plain_of_eq_finite hx, ofText?_signed_positional (isDigit_of_mem_significant _),
      ofDecimal_significant, ofDecimal_of_finite (ofDecimal_shortest .up rank), hx]
  cases x with
  | nan => decide
  | infinity negative => cases negative <;> decide
  | finite negative rank => exact hfinite negative rank rfl

end FilterQuery.Float64
