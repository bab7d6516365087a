import FilterQuery.Text.Numeral

/-!
# Unsigned whole numbers

The numerals of unsigned integers of 64 bits are digits behind an optional `+`. A text is read iff
it is such a numeral of an integer that fits (`unsigned64?_eq_some_iff`), and the integer is written
as one of them (`isNumeralOf_decimal`).
-/

namespace FilterQuery.Text

variable {s : List Char} {n : UInt64}

/-- The text is a decimal numeral of the number. Zeros and one `+` may stand in front of it. -/
def IsNumeralOf (n : UInt64) (s : List Char) : Prop :=
  ∃ digits, (s = digits ∨ s = '+' :: digits) ∧ digits ≠ [] ∧
    (∀ c ∈ digits, c.isDigit = true) ∧ Nat.ofDigitChars 10 digits 0 = n.toNat

/-- Digits are read as their decimal value, however many there are, and nothing else is read. -/
theorem natural?_eq_some_iff {k : Nat} :
    natural? s = some k ↔
      s ≠ [] ∧ (∀ c ∈ s, c.isDigit = true) ∧ Nat.ofDigitChars 10 s 0 = k := by
  unfold natural?
  split
  · next hs =>
    simp only [Bool.and_eq_true, Bool.not_eq_true', List.isEmpty_eq_false_iff,
      List.all_eq_true] at hs
    rw [Option.some.injEq]
    exact ⟨fun h => ⟨hs.1, hs.2, h⟩, fun h => h.2.2⟩
  · next hs =>
    simp only [Bool.and_eq_true, Bool.not_eq_true', List.isEmpty_eq_false_iff,
      List.all_eq_true] at hs
    refine iff_of_false (by simp) ?_
    rintro ⟨hne, hdigits, -⟩
    exact hs ⟨hne, hdigits⟩

/-- A number fits an unsigned word iff it is the value of one. -/
theorem unsignedOfNat?_eq_some_iff {k : Nat} : unsignedOfNat? k = some n ↔ k = n.toNat := by
  unfold unsignedOfNat?
  split
  · next hlt =>
    rw [Option.some.injEq, ← UInt64.toNat_inj, UInt64.toNat_ofNat_of_lt' hlt]
  · next hlt =>
    refine iff_of_false (by simp) ?_
    rintro rfl
    exact hlt n.toNat_lt

/-- **Numerals of unsigned integers** are read, and nothing else. -/
theorem unsigned64?_eq_some_iff : unsigned64? s = some n ↔ IsNumeralOf n s := by
  -- what stands behind the sign is read the same, whether there is a sign or not
  have hread : ∀ digits, (natural? digits).bind unsignedOfNat? = some n ↔
      digits ≠ [] ∧ (∀ c ∈ digits, c.isDigit = true) ∧
        Nat.ofDigitChars 10 digits 0 = n.toNat := by
    intro digits
    simp only [Option.bind_eq_some_iff, unsignedOfNat?_eq_some_iff, natural?_eq_some_iff,
      exists_eq_right]
  unfold unsigned64? IsNumeralOf
  split
  · next digits =>
    show (natural? digits).bind unsignedOfNat? = some n ↔ _
    rw [hread]
    constructor
    · intro h
      exact ⟨digits, .inr rfl, h⟩
    · rintro ⟨digits', rfl | h, hdigits⟩
      · -- a sign is no digit
        exact absurd (hdigits.2.1 '+' List.mem_cons_self) (by decide)
      · cases h
        exact hdigits
  · next hplus =>
    show (natural? s).bind unsignedOfNat? = some n ↔ _
    rw [hread]
    constructor
    · intro h
      exact ⟨s, .inl rfl, h⟩
    · rintro ⟨digits, rfl | rfl, hdigits⟩
      · exact hdigits
      · exact absurd rfl (hplus digits)

/-- A text is a numeral of one number at most. -/
theorem IsNumeralOf.unique {m : UInt64} (h : IsNumeralOf n s) (h' : IsNumeralOf m s) : n = m := by
  rw [← unsigned64?_eq_some_iff] at h h'
  rw [h] at h'
  exact Option.some.inj h'

/-- The digits of a number are one of its numerals, the one without a sign and without a zero in
front. -/
theorem isNumeralOf_decimal (n : UInt64) : IsNumeralOf n (decimal n.toNat) :=
  ⟨_, .inl rfl, natural?_eq_some_iff.mp (natural?_decimal n.toNat)⟩

end FilterQuery.Text
