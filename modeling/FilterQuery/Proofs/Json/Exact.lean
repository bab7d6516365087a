import FilterQuery.Proofs.Float64.Plain
import FilterQuery.Proofs.Json.Numeral

/-!
# Numbers denoted exactly

A numeral without fraction and exponent denotes a whole number, and any other one the floating-point
number nearest to its decimal (`Numeral.denoted`). This is what a numeral stands for, however large
its digits are; a reader may come less close to it.

Every number that has a notation is the one that its notation denotes
(`Number.exists_split?_text`). A floating-point number is written with the shortest decimal that is
rounded to it, and its notation shows this decimal in one of four forms: a lone zero, with digits
around the point, with a zero behind the point, or with an exponent.
-/

namespace FilterQuery.Json

open Text

namespace Numeral

/-- The number that the numeral denotes. -/
def denoted (n : Numeral) : Number :=
  if n.fraction.isEmpty && n.exponent.isEmpty then
    .whole (signedInt n.negative (Nat.ofDigitChars 10 n.whole 0))
  else
    .float (Float64.ofDecimal n.negative (Nat.ofDigitChars 10 (n.whole ++ n.fraction) 0)
      (n.statedExponent - n.fraction.length))

/-! ## Numerals put together -/

variable {exponentNegative : Bool} {whole fraction exponent tail rest : List Char}

/-- What may stand behind whole digits and a fraction: neither a digit nor a point. -/
def endsFraction (c : Char) : Bool := c.isDigit || c == '.'

theorem splitFraction?_of_stopsAt (hfraction : ∀ c ∈ fraction, c.isDigit = true)
    (hrest : StopsAt endsFraction rest) :
    splitFraction? (Float64.positional.fraction fraction ++ rest) = some (fraction, rest) := by
  cases fraction with
  | nil =>
    show splitFraction? rest = _
    unfold splitFraction?
    split
    · cases stopsAt_cons.mp hrest
    · rfl
  | cons c fraction =>
    have hdigit : StopsAt Char.isDigit rest := by
      intro d hd
      exact (Bool.or_eq_false_iff.mp (hrest d hd)).1
    exact splitDigits?_of_stopsAt (List.cons_ne_nil _ _) hfraction hdigit

/-- **A numeral is cut into the parts that it is put together from.** -/
theorem split?_signed (hne : whole ≠ []) (hwhole : ∀ c ∈ whole, c.isDigit = true)
    (hzero : whole = ['0'] ∨ whole.head? ≠ some '0') (hfraction : ∀ c ∈ fraction, c.isDigit = true)
    (htail : StopsAt endsFraction tail)
    (hexponent : splitExponent? tail = some (exponentNegative, exponent, [])) (negative : Bool) :
    split? (Float64.signed negative (whole ++ Float64.positional.fraction fraction ++ tail)) =
      some (⟨negative, whole, fraction, exponentNegative, exponent⟩, []) := by
  -- a numeral without a minus starts with a digit
  have hminus : splitMinus
      (Float64.signed negative (whole ++ Float64.positional.fraction fraction ++ tail)) =
      (negative, whole ++ (Float64.positional.fraction fraction ++ tail)) := by
    rw [List.append_assoc]
    cases negative with
    | true => rfl
    | false =>
      obtain ⟨c, s, rfl⟩ := List.exists_cons_of_ne_nil hne
      exact splitMinus_cons (Float64.ne_of_isDigit (hwhole c (by simp)) rfl) _
  have hstop : StopsAt Char.isDigit (Float64.positional.fraction fraction ++ tail) := by
    cases fraction with
    | nil =>
      intro c hc
      exact (Bool.or_eq_false_iff.mp (htail c hc)).1
    | cons c fraction => exact stopsAt_cons.mpr rfl
  refine split?_eq_some_iff.mpr ⟨_, _, ?_, ?_, splitFraction?_of_stopsAt hfraction htail, hexponent⟩
  · rw [hminus]
  · rw [hminus]
    exact splitWhole?_of_stopsAt hne hwhole hzero hstop

/-- A fraction or an exponent makes it a floating-point number. -/
theorem denoted_of_ne_nil {n : Numeral} (h : n.fraction ≠ [] ∨ n.exponent ≠ []) :
    n.denoted = .float (Float64.ofDecimal n.negative (Nat.ofDigitChars 10 (n.whole ++ n.fraction) 0)
      (n.statedExponent - n.fraction.length)) := by
  have hwhole : (n.fraction.isEmpty && n.exponent.isEmpty) = false := by
    rcases h with h | h <;> simp [h]
  unfold denoted
  rw [hwhole, if_neg Bool.false_ne_true]

/-! ## Exponents -/

/-- The text of an exponent. -/
def exponentText (e : Int) : List Char :=
  ['e', if e < 0 then '-' else '+'] ++ decimal e.natAbs

theorem splitExponent?_exponentText (e : Int) :
    splitExponent? (exponentText e) = some (decide (e < 0), decimal e.natAbs, []) := by
  have hdigits := List.all_eq_true.mp (all_isDigit_decimal e.natAbs)
  have hcut := splitDigits?_of_stopsAt (decimal_ne_nil e.natAbs) hdigits stopsAt_nil
  rw [List.append_nil] at hcut
  have hsign : Float64.splitSign ((if e < 0 then '-' else '+') :: decimal e.natAbs) =
      (decide (e < 0), decimal e.natAbs) := by
    by_cases he : e < 0
    · rw [if_pos he, decide_eq_true he]
      rfl
    · rw [if_neg he, decide_eq_false he]
      rfl
  show splitExponent? ('e' :: _ :: decimal e.natAbs) = _
  rw [splitExponent?_cons rfl, hsign, hcut]
  rfl

/-- The exponent that was written is the one that is stated. -/
theorem statedExponent_decimal (negative : Bool) (whole fraction : List Char) (e : Int) :
    statedExponent ⟨negative, whole, fraction, decide (e < 0), decimal e.natAbs⟩ = e := by
  unfold statedExponent
  simp only [ofDigitChars_decimal, decide_eq_true_eq]
  split <;> omega

end Numeral

/-! ## Floating-point numbers -/

/-- The digits do not start with a zero. -/
theorem head?_significant_ne (d : Float64.Decimal) :
    (Float64.significant d).1.head? ≠ some '0' := by
  by_cases hzero : d.coefficient = 0
  · unfold Float64.significant
    rw [if_pos hzero]
    simp
  · obtain ⟨k, hk⟩ := Float64.exists_rdropWhile_append (decimal d.coefficient)
    rw [Float64.significant_of_ne_zero hzero]
    intro hhead
    obtain ⟨s, hs⟩ := List.head?_eq_some_iff.mp hhead
    simp only at hs
    rw [hs] at hk
    -- only zero is written with a zero in front
    have hnil : s ++ List.replicate k '0' = [] := eq_nil_of_decimal_eq hk
    have hvalue := natural?_decimal d.coefficient
    rw [hk, List.cons_append, hnil] at hvalue
    exact hzero (Option.some.inj hvalue).symm

/-- The notation of digits with the point at the given place. -/
def floatText (digits : List Char) (point : Int) : List Char :=
  if digits.isEmpty then "0.0".toList
  else if Float64.isPositionalExponent (point - 1) then
    let numeral := Float64.positional digits point
    if numeral.contains '.' then numeral else numeral ++ ".0".toList
  else Float64.scientific digits point

/-- The first case of a case distinction, with the number left a variable. -/
theorem match_finite {α : Type} (finite : Bool → Fin Float64.infinityRank → α) (other : α)
    (x : Float64) (negative : Bool) (rank : Fin Float64.infinityRank) :
    x = .finite negative rank →
      (match x with
        | .finite negative rank => finite negative rank
        | _ => other) = finite negative rank := by
  rintro rfl
  rfl

/-- The notation of a finite number. As with the plain notation, the equation is a hypothesis. -/
theorem json?_of_eq_finite {x : Float64} {negative : Bool} {rank : Fin Float64.infinityRank}
    (hx : x = .finite negative rank) :
    x.json? = some (Float64.signed negative
      (floatText (Float64.significant (Float64.shortest .even rank)).1
        (Float64.significant (Float64.shortest .even rank)).2)) := by
  obtain ⟨digits, hdigits⟩ :
      ∃ digits, Float64.significant (Float64.shortest .even rank) = digits := ⟨_, rfl⟩
  rw [hdigits]
  unfold Float64.json?
  refine (match_finite _ _ x negative rank hx).trans ?_
  rw [hdigits]
  rfl

/-- The text is a numeral that denotes the floating-point number. -/
def Shows (text : List Char) (x : Float64) : Prop :=
  ∃ n : Numeral, Numeral.split? text = some (n, []) ∧ n.denoted = .float x

section FloatText

open Numeral

variable {digits whole fraction : List Char} {coefficient k : Nat} {exponent : Int}

/-- Digits around a point denote the decimal that they are, with zeros at its end. -/
theorem shows_fraction (hne : whole ≠ []) (hwhole : ∀ c ∈ whole, c.isDigit = true)
    (hzero : whole = ['0'] ∨ whole.head? ≠ some '0') (hfraction : ∀ c ∈ fraction, c.isDigit = true)
    (hpoint : fraction ≠ [])
    (hvalue : Nat.ofDigitChars 10 (whole ++ fraction) 0 = coefficient * 10 ^ k)
    (hexponent : -(fraction.length : Int) + k = exponent) (negative : Bool) :
    Shows (Float64.signed negative (whole ++ Float64.positional.fraction fraction))
      (Float64.ofDecimal negative coefficient exponent) := by
  have hnone : splitExponent? [] = some (false, [], []) := rfl
  have hcut := split?_signed hne hwhole hzero hfraction stopsAt_nil hnone negative
  rw [List.append_nil] at hcut
  refine ⟨_, hcut, ?_⟩
  rw [denoted_of_ne_nil (.inl hpoint)]
  show Number.float (Float64.ofDecimal negative (Nat.ofDigitChars 10 (whole ++ fraction) 0)
    (0 - fraction.length)) = _
  -- zeros at the end of the digits are a power of ten
  rw [hvalue, Float64.ofDecimal_mul_pow, ← hexponent, Int.zero_sub]

/-- With an exponent the point may be missing. -/
theorem shows_exponentText (hne : whole ≠ []) (hwhole : ∀ c ∈ whole, c.isDigit = true)
    (hzero : whole = ['0'] ∨ whole.head? ≠ some '0') (hfraction : ∀ c ∈ fraction, c.isDigit = true)
    (hvalue : Nat.ofDigitChars 10 (whole ++ fraction) 0 = coefficient * 10 ^ k) {e : Int}
    (hexponent : e - fraction.length + k = exponent) (negative : Bool) :
    Shows (Float64.signed negative
        (whole ++ Float64.positional.fraction fraction ++ exponentText e))
      (Float64.ofDecimal negative coefficient exponent) := by
  have hcut := split?_signed hne hwhole hzero hfraction (stopsAt_cons.mpr rfl)
    (splitExponent?_exponentText e) negative
  refine ⟨_, hcut, ?_⟩
  rw [denoted_of_ne_nil (.inr (decimal_ne_nil _)), statedExponent_decimal]
  simp only
  rw [hvalue, Float64.ofDecimal_mul_pow, hexponent]

/-- Zero is written with a zero on both sides of the point. -/
theorem shows_zero (negative : Bool) (exponent : Int) :
    Shows (Float64.signed negative "0.0".toList) (Float64.ofDecimal negative 0 exponent) := by
  -- any exponent will do for zero
  have hany : ∀ e, Float64.ofDecimal negative 0 e = Float64.ofDecimal negative 0 (-1) := by
    intro e
    unfold Float64.ofDecimal
    rw [if_pos rfl, if_pos rfl]
  have hdigit : ∀ c ∈ ['0'], c.isDigit = true := List.forall_mem_singleton.mpr rfl
  show Shows (Float64.signed negative (['0'] ++ Float64.positional.fraction ['0'])) _
  rw [hany]
  exact shows_fraction (k := 0) (List.cons_ne_nil _ _) hdigit (.inl rfl) hdigit
    (List.cons_ne_nil _ _) rfl rfl negative

/-- Whole digits get a zero behind the point. -/
theorem shows_positional (hdigits : ∀ c ∈ digits, c.isDigit = true)
    (hzero : digits.head? ≠ some '0') (hne : digits ≠ []) (negative : Bool) (point : Int) :
    Shows (Float64.signed negative
        (if (Float64.positional digits point).contains '.' then Float64.positional digits point
          else Float64.positional digits point ++ ".0".toList))
      (Float64.ofDecimal negative (Nat.ofDigitChars 10 digits 0) (point - digits.length)) := by
  obtain ⟨whole, fraction, k, hpositional, hwholeNe, hwhole, hfraction, hhead, hvalue, hpoint⟩ :=
    Float64.exists_positional_eq hdigits point
  have hfirst : whole = ['0'] ∨ whole.head? ≠ some '0' :=
    (hhead hne).imp_right fun h => ne_of_eq_of_ne h hzero
  rw [hpositional]
  cases fraction with
  | cons c fraction =>
    have hcontains :
        (whole ++ Float64.positional.fraction (c :: fraction)).contains '.' = true := by
      simp [Float64.positional.fraction]
    rw [hcontains, if_pos rfl]
    exact shows_fraction hwholeNe hwhole hfirst hfraction (List.cons_ne_nil _ _) hvalue hpoint
      negative
  | nil =>
    have hnone : Float64.positional.fraction [] = [] := rfl
    -- digits alone have no point
    have hcontains : whole.contains '.' = false := by
      refine Bool.eq_false_iff.mpr fun hmem => ?_
      cases hwhole _ (List.contains_iff_mem.mp hmem)
    rw [hnone, List.append_nil, hcontains, if_neg Bool.false_ne_true]
    -- the zero behind the point is one more at the end of the decimal
    have hvalue' : Nat.ofDigitChars 10 (whole ++ ['0']) 0 =
        Nat.ofDigitChars 10 digits 0 * 10 ^ (k + 1) := by
      rw [List.append_nil] at hvalue
      rw [Nat.ofDigitChars_append, hvalue, Nat.ofDigitChars_cons, Nat.pow_succ]
      show 10 * _ + 0 = _
      rw [Nat.add_zero, Nat.mul_comm 10, Nat.mul_assoc]
    have hpoint' : -((['0'] : List Char).length : Int) + (k + 1 : Nat) = point - digits.length := by
      simp only [List.length_nil] at hpoint
      simp only [List.length_singleton]
      omega
    exact shows_fraction hwholeNe hwhole hfirst (List.forall_mem_singleton.mpr rfl)
      (List.cons_ne_nil _ _) hvalue' hpoint' negative

theorem shows_scientific (hdigits : ∀ c ∈ digits, c.isDigit = true)
    (hzero : digits.head? ≠ some '0') (hne : digits ≠ []) (negative : Bool) (point : Int) :
    Shows (Float64.signed negative (Float64.scientific digits point))
      (Float64.ofDecimal negative (Nat.ofDigitChars 10 digits 0) (point - digits.length)) := by
  -- one digit stands in front of the point, and the exponent says where the point belongs
  obtain ⟨whole, fraction, k, hpositional, hwholeNe, hwhole, hfraction, hhead, hvalue, hpoint⟩ :=
    Float64.exists_positional_eq hdigits 1
  have hfirst : whole = ['0'] ∨ whole.head? ≠ some '0' :=
    (hhead hne).imp_right fun h => ne_of_eq_of_ne h hzero
  have hscientific : Float64.scientific digits point =
      whole ++ Float64.positional.fraction fraction ++ exponentText (point - 1) := by
    unfold Float64.scientific
    rw [hpositional]
    simp [exponentText]
  rw [hscientific]
  refine shows_exponentText hwholeNe hwhole hfirst hfraction hvalue ?_ negative
  omega

/-- **The notation shows the decimal.** -/
theorem shows_floatText (hdigits : ∀ c ∈ digits, c.isDigit = true)
    (hzero : digits.head? ≠ some '0') (negative : Bool) (point : Int) :
    Shows (Float64.signed negative (floatText digits point))
      (Float64.ofDecimal negative (Nat.ofDigitChars 10 digits 0) (point - digits.length)) := by
  unfold floatText
  by_cases hne : digits = []
  · subst hne
    exact shows_zero negative _
  · rw [if_neg (by simpa using hne)]
    split
    · exact shows_positional hdigits hzero hne negative point
    · exact shows_scientific hdigits hzero hne negative point

end FloatText

/-- **A number is what its notation denotes.** -/
theorem Number.exists_split?_text (n : Number) (h : ∀ x, n = .float x → x.isFinite = true) :
    ∃ numeral : Numeral, Numeral.split? n.text = some (numeral, []) ∧ numeral.denoted = n := by
  cases n with
  | whole n =>
    refine ⟨Numeral.ofInt n, Numeral.split?_signedDecimal n, ?_⟩
    show Number.whole (signedInt (decide (n < 0)) (Nat.ofDigitChars 10 (decimal n.natAbs) 0)) = _
    rw [ofDigitChars_decimal]
    unfold signedInt
    simp only [decide_eq_true_eq]
    congr 1
    split <;> omega
  | float x =>
    have hfinite : ∀ negative rank, x = .finite negative rank →
        Shows (x.json?.getD "null".toList) x := by
      intro negative rank hx
      -- the shortest decimal is rounded to the number, and what is shown is this decimal
      have hshows := shows_floatText
        (Float64.isDigit_of_mem_significant (Float64.shortest .even rank))
        (head?_significant_ne _) negative (Float64.significant (Float64.shortest .even rank)).2
      rw [Float64.ofDecimal_significant,
        Float64.ofDecimal_of_finite (Float64.ofDecimal_shortest .even rank), ← hx] at hshows
      rw [json?_of_eq_finite hx, Option.getD_some]
      exact hshows
    have hx := h x rfl
    cases x with
    | nan => cases hx
    | infinity negative => cases hx
    | finite negative rank => exact hfinite negative rank rfl

end FilterQuery.Json
