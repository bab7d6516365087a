import FilterQuery.Float64.Notation
import FilterQuery.Float64.Numeral
import Mathlib.Algebra.Group.Int.Defs
import Mathlib.Algebra.Group.Nat.Defs

/-!
# Signed whole numbers

The signed integers of 64 bits in decimal: reading one is to read digits behind an optional sign
(`exists_of_signed64?`), and digits behind a sign are read whenever the number fits
(`signed64?_signed_decimal`), so that every integer is read back (`signed64?_signedDecimal`).
-/

namespace FilterQuery

/-- A magnitude with a sign. -/
def signedInt (negative : Bool) (n : Nat) : Int := if negative then -(n : Int) else n

theorem natAbs_signedInt (negative : Bool) (n : Nat) : (signedInt negative n).natAbs = n := by
  cases negative <;> simp [signedInt]

namespace Text

open Float64

/-- A number fits a signed word iff it is the value of one. -/
theorem signedOfInt?_eq_some_iff {n : Int} {i : Int64} :
    signedOfInt? n = some i ↔ i.toInt = n := by
  unfold signedOfInt?
  have hmin : Int64.minValue.toInt = -2 ^ 63 := rfl
  have hmax : Int64.maxValue.toInt = 2 ^ 63 - 1 := rfl
  rw [hmin, hmax]
  constructor
  · intro h
    split at h
    · next hn =>
      obtain rfl := Option.some.inj h
      exact Int64.toInt_ofInt_of_le hn.1 (by omega)
    · cases h
  · rintro rfl
    have hlow := Int64.le_toInt i
    have hhigh := Int64.toInt_lt i
    rw [if_pos ⟨hlow, by omega⟩, Int64.ofInt_toInt]

/-- Magnitudes of 63 bits fit with either sign. Only the least number has a magnitude beyond
them. -/
theorem exists_signedOfInt?_eq_some (negative : Bool) {n : Nat} (h : n < 2 ^ 63) :
    ∃ i, signedOfInt? (signedInt negative n) = some i ∧ i.toInt = signedInt negative n := by
  have hbounds : -2 ^ 63 ≤ signedInt negative n ∧ signedInt negative n < 2 ^ 63 := by
    unfold signedInt
    split <;> omega
  have hi := Int64.toInt_ofInt_of_le hbounds.1 hbounds.2
  exact ⟨_, signedOfInt?_eq_some_iff.mpr hi, hi⟩

/-- Reading a signed integer takes the sign off and reads the rest. -/
theorem signed64?_eq (s : List Char) :
    signed64? s = (natural? (splitSign s).2).bind fun n =>
      signedOfInt? (signedInt (splitSign s).1 n) := by
  unfold signed64? splitSign
  split <;> (simp only [signedInt]; cases natural? _ <;> rfl)

/-- The digits of a whole number have its value. -/
theorem ofDigitChars_decimal (n : Nat) : Nat.ofDigitChars 10 (decimal n) 0 = n :=
  Nat.ofDigitChars_ten_toDigits

/-- The digits of a whole number start with a digit. -/
theorem exists_decimal_eq_cons (n : Nat) :
    ∃ c s, decimal n = c :: s ∧ c.isDigit = true := by
  cases hdecimal : decimal n with
  | nil => exact absurd hdecimal (decimal_ne_nil n)
  | cons c s =>
    have hdigits := all_isDigit_decimal n
    rw [hdecimal, List.all_cons, Bool.and_eq_true] at hdigits
    exact ⟨c, s, rfl, hdigits.1⟩

/-- What starts with a digit has no sign. -/
theorem splitSign_signed (negative : Bool) {c : Char} (s : List Char) (hc : c.isDigit = true) :
    -- a digit is neither of the two signs
    splitSign (signed negative (c :: s)) = (negative, c :: s) := by
  cases negative with
  | true => rfl
  | false =>
    show splitSign (c :: s) = _
    unfold splitSign
    split
    · next heq =>
      obtain ⟨rfl, -⟩ := List.cons.inj heq
      cases hc
    · next heq =>
      obtain ⟨rfl, -⟩ := List.cons.inj heq
      cases hc
    · rfl

/-- Digits behind a sign are read iff the number fits. -/
theorem signed64?_signed_decimal (negative : Bool) (n : Nat) :
    signed64? (signed negative (decimal n)) = signedOfInt? (signedInt negative n) := by
  obtain ⟨c, s, hdecimal, hc⟩ := exists_decimal_eq_cons n
  rw [signed64?_eq, hdecimal, splitSign_signed negative s hc, ← hdecimal, natural?_decimal]
  rfl

/-- The notation of a number is its sign and the digits of its magnitude. -/
theorem signedDecimal_eq (n : Int) :
    signedDecimal n = signed (decide (n < 0)) (decimal n.natAbs) := by
  cases n with
  | ofNat n => rfl
  | negSucc n =>
    rw [decide_eq_true (Int.negSucc_lt_zero n)]
    rfl

/-- **A signed integer is read back.** -/
theorem signed64?_signedDecimal (i : Int64) : signed64? (signedDecimal i.toInt) = some i := by
  rw [signedDecimal_eq, signed64?_signed_decimal, signedOfInt?_eq_some_iff]
  -- sign and magnitude together are the number again
  unfold signedInt
  split
  · next h =>
    have hneg := of_decide_eq_true h
    omega
  · next h =>
    have hnonneg : ¬ i.toInt < 0 := fun hneg => h (decide_eq_true hneg)
    omega

/-- What reads as a signed integer is digits behind an optional sign. -/
theorem exists_of_signed64? {s : List Char} {i : Int64} (h : signed64? s = some i) :
    ∃ n, natural? (splitSign s).2 = some n ∧ i.toInt = signedInt (splitSign s).1 n := by
  rw [signed64?_eq] at h
  obtain ⟨n, hn, hi⟩ := Option.bind_eq_some_iff.mp h
  exact ⟨n, hn, signedOfInt?_eq_some_iff.mp hi⟩

end Text

end FilterQuery
