import FilterQuery.Json.Numeral
import FilterQuery.Proofs.Float64.Rounding
import FilterQuery.Proofs.Text.Pieces
import FilterQuery.Proofs.Text.Runs
import FilterQuery.Proofs.Text.Signed
import Mathlib.Tactic.ByContra

/-!
# Numbers in JSON texts

A number is read up to the first character that it cannot go on with, so that what is known of a
number on its own holds of it inside a text (`split?_append`). Whole numbers are read back as long
as they fit 64 bits (`Number.readsBack_whole`), and every number that is read fits: a whole
one 64 bits, a floating-point one the finite numbers (`inRange_number?`).

A floating-point number is computed in two roundings, so that not all of them are read back.
`Number.ReadsBack` says that a number is.
-/

namespace FilterQuery

open Text

/-! ## Digits -/

/-- Only zero is written with a zero in front. -/
theorem Text.eq_nil_of_decimal_eq {n : Nat} {s : List Char} (h : decimal n = '0' :: s) :
    s = [] := by
  -- Strong induction along `decimal`, which writes the digits of `n / 10` in front of the last one.
  induction n using Nat.strongRecOn generalizing s with
  | ind n ih =>
    unfold decimal at h
    rw [Nat.toDigits_eq_if (by decide)] at h
    split at h
    · exact (List.cons.inj h).2.symm
    · next hlarge =>
      cases hfront : decimal (n / 10) with
      | nil => exact absurd hfront (decimal_ne_nil _)
      | cons c t =>
        rw [show Nat.toDigits 10 (n / 10) = c :: t from hfront] at h
        obtain ⟨rfl, -⟩ := List.cons.inj h
        -- the number in front is zero, so there are no digits behind it
        have hnil := ih (n / 10) (by omega) hfront
        rw [hnil] at hfront
        have hzero : n / 10 = 0 := by
          have hvalue := natural?_decimal (n / 10)
          rw [hfront] at hvalue
          exact (Option.some.inj hvalue).symm
        omega

namespace Json

open Text

/-- The number is one that can be read: it fits 64 bits, with or without a sign, or it is finite. -/
def Number.InRange : Number → Prop
  | whole n => -2 ^ 63 ≤ n ∧ n < 2 ^ 64
  | float x => x.isFinite = true

/-- A number without a notation is written as null. -/
theorem Number.text_of_not_isFinite {x : Float64} (h : ¬ x.isFinite = true) :
    (Number.float x).text = "null".toList := by
  cases x with
  | finite negative rank => exact absurd rfl h
  | nan => rfl
  | infinity negative => rfl

namespace Numeral

/-- A character that a number may go on with. -/
def goesOn (c : Char) : Bool := c.isDigit || c == '.' || c == 'e' || c == 'E'

variable {s rest : List Char}

/-- Where a number cannot go on, there is no digit in particular. -/
theorem stopsAt_isDigit (h : StopsAt goesOn rest) : StopsAt Char.isDigit rest := by
  intro c hc
  have hstop := h c hc
  unfold goesOn at hstop
  simp only [Bool.or_eq_false_iff] at hstop
  exact hstop.1.1.1

/-- What stands behind a number does not matter to its digits. The lemmas that follow say the same
of every piece that a number is cut into. -/
theorem splitDigits_append (h : StopsAt goesOn rest) :
    splitDigits (s ++ rest) = ((splitDigits s).1, (splitDigits s).2 ++ rest) := by
  unfold splitDigits
  rw [takeWhile_append_left (stopsAt_isDigit h), dropWhile_append_left (stopsAt_isDigit h)]

theorem splitDigits?_append {digits behind : List Char} (h : StopsAt goesOn rest)
    (hs : splitDigits? s = some (digits, behind)) :
    splitDigits? (s ++ rest) = some (digits, behind ++ rest) := by
  unfold splitDigits? at hs ⊢
  rw [splitDigits_append h]
  rcases hcut : splitDigits s with ⟨_ | ⟨c, t⟩, u⟩
  · rw [hcut] at hs
    cases hs
  · rw [hcut] at hs
    cases hs
    rfl

theorem splitWhole?_append {digits behind : List Char} (h : StopsAt goesOn rest)
    (hs : splitWhole? s = some (digits, behind)) :
    splitWhole? (s ++ rest) = some (digits, behind ++ rest) := by
  unfold splitWhole? at hs ⊢
  rw [splitDigits_append h]
  rcases hcut : splitDigits s with ⟨_ | ⟨c, t⟩, u⟩
  · rw [hcut] at hs
    cases hs
  · rw [hcut] at hs
    simp only at hs ⊢
    split at hs
    · cases hs
    · cases hs
    · cases hs
      split <;> simp_all

/-- A missing fraction stays missing: what stands behind the number does not start with a point. -/
theorem splitFraction?_append {digits behind : List Char} (h : StopsAt goesOn rest)
    (hs : splitFraction? s = some (digits, behind)) :
    splitFraction? (s ++ rest) = some (digits, behind ++ rest) := by
  cases s with
  | nil =>
    cases hs
    cases rest with
    | nil => rfl
    | cons c rest =>
      have hc := stopsAt_cons.mp h
      unfold splitFraction?
      split
      · next heq =>
        obtain ⟨rfl, -⟩ := List.cons.inj heq
        cases hc
      · rfl
  | cons c s =>
    unfold splitFraction? at hs
    split at hs
    · next heq =>
      obtain ⟨rfl, rfl⟩ := List.cons.inj heq
      -- the point is there in both texts, and the digits behind it are cut off alike
      exact splitDigits?_append h hs
    · next hpoint =>
      cases hs
      rw [List.cons_append]
      unfold splitFraction?
      split
      · next heq =>
        obtain ⟨rfl, -⟩ := List.cons.inj heq
        exact absurd rfl (hpoint s)
      · rfl

/-- The text must have a first character, or else a sign could come from what stands behind it. -/
theorem splitSign_append (hne : s ≠ []) (rest : List Char) :
    Float64.splitSign (s ++ rest) =
      ((Float64.splitSign s).1, (Float64.splitSign s).2 ++ rest) := by
  cases s with
  | nil => exact absurd rfl hne
  | cons c s =>
    rw [List.cons_append]
    unfold Float64.splitSign
    split
    · next heq =>
      obtain ⟨rfl, rfl⟩ := List.cons.inj heq
      rfl
    · next heq =>
      obtain ⟨rfl, rfl⟩ := List.cons.inj heq
      rfl
    · -- neither sign is in front, and appending does not change the character there
      next hminus hplus =>
      split
      · next heq =>
        obtain ⟨rfl, -⟩ := List.cons.inj heq
        exact absurd rfl (hminus _)
      · next heq =>
        obtain ⟨rfl, -⟩ := List.cons.inj heq
        exact absurd rfl (hplus _)
      · rfl

/-- Behind the sign of an exponent come its digits. -/
theorem splitExponent?_cons {c : Char} (hc : (c == 'e' || c == 'E') = true) (s : List Char) :
    splitExponent? (c :: s) = (splitDigits? (Float64.splitSign s).2).map fun (digits, behind) =>
      ((Float64.splitSign s).1, digits, behind) := by
  unfold splitExponent?
  simp only [hc, if_true]
  show (splitDigits? (Float64.splitSign s).2).map _ = _
  rfl

/-- A missing exponent stays missing: what stands behind the number does not start with the letter
of one. -/
theorem splitExponent?_append {negative : Bool} {digits behind : List Char}
    (h : StopsAt goesOn rest) (hs : splitExponent? s = some (negative, digits, behind)) :
    splitExponent? (s ++ rest) = some (negative, digits, behind ++ rest) := by
  cases s with
  | nil =>
    cases hs
    cases rest with
    | nil => rfl
    | cons c rest =>
      have hc := stopsAt_cons.mp h
      unfold goesOn at hc
      simp only [Bool.or_eq_false_iff] at hc
      unfold splitExponent?
      rw [List.nil_append]
      simp only [hc.1.2, hc.2]
      rfl
  | cons c s =>
    rw [List.cons_append]
    by_cases hc : (c == 'e' || c == 'E') = true
    · rw [splitExponent?_cons hc] at hs ⊢
      obtain ⟨⟨digits', behind'⟩, hdigits, heq⟩ := Option.map_eq_some_iff.mp hs
      cases heq
      -- there are digits behind the letter, so what the sign is read from is not empty
      have hne : s ≠ [] := by
        rintro rfl
        cases hdigits
      rw [splitSign_append hne, splitDigits?_append h hdigits]
      rfl
    · unfold splitExponent? at hs ⊢
      simp only [if_neg hc] at hs ⊢
      cases hs
      rfl

/-- Cuts a text after its minus sign, if it has one. -/
def splitMinus : List Char → Bool × List Char
  | '-' :: s => (true, s)
  | s => (false, s)

/-- Nothing but a minus sign is cut off. -/
theorem splitMinus_cons {c : Char} (hc : c ≠ '-') (s : List Char) :
    splitMinus (c :: s) = (false, c :: s) := by
  unfold splitMinus
  split
  · next heq =>
    obtain ⟨rfl, -⟩ := List.cons.inj heq
    exact absurd rfl hc
  · rfl

/-- A number is cut off piece by piece. -/
theorem split?_eq (s : List Char) :
    split? s = (splitWhole? (splitMinus s).2).bind fun whole =>
      (splitFraction? whole.2).bind fun fraction =>
        (splitExponent? fraction.2).map fun exponent =>
          (⟨(splitMinus s).1, whole.1, fraction.1, exponent.1, exponent.2.1⟩, exponent.2.2) := by
  unfold split?
  -- each of the three equations only renames a pattern match
  show (splitWhole? (splitMinus s).2).bind _ = _
  congr 1
  funext whole
  show (splitFraction? whole.2).bind _ = _
  congr 1
  funext fraction
  show (splitExponent? fraction.2).bind _ = _
  cases splitExponent? fraction.2 <;> rfl

/-- The pieces of a number stand one behind the other, and each is cut off where the one before it
ends. -/
theorem split?_eq_some_iff {n : Numeral} :
    split? s = some (n, rest) ↔ ∃ s₁ s₂, (splitMinus s).1 = n.negative ∧
      splitWhole? (splitMinus s).2 = some (n.whole, s₁) ∧
      splitFraction? s₁ = some (n.fraction, s₂) ∧
      splitExponent? s₂ = some (n.exponentNegative, n.exponent, rest) := by
  rw [split?_eq]
  constructor
  · intro h
    obtain ⟨⟨whole, s₁⟩, hwhole, h⟩ := Option.bind_eq_some_iff.mp h
    obtain ⟨⟨fraction, s₂⟩, hfraction, h⟩ := Option.bind_eq_some_iff.mp h
    obtain ⟨⟨exponentNegative, exponent, rest'⟩, hexponent, h⟩ := Option.map_eq_some_iff.mp h
    cases h
    exact ⟨s₁, s₂, rfl, hwhole, hfraction, hexponent⟩
  · rintro ⟨s₁, s₂, hnegative, hwhole, hfraction, hexponent⟩
    rw [hwhole, hnegative, Option.bind_some, hfraction, Option.bind_some, hexponent]
    rfl

/-- **A number is read from a text as it is read on its own.** -/
theorem split?_append {n : Numeral} {behind : List Char} (h : StopsAt goesOn rest)
    (hs : split? s = some (n, behind)) : split? (s ++ rest) = some (n, behind ++ rest) := by
  obtain ⟨s₁, s₂, hnegative, hwhole, hfraction, hexponent⟩ := split?_eq_some_iff.mp hs
  have hminus : splitMinus (s ++ rest) = ((splitMinus s).1, (splitMinus s).2 ++ rest) := by
    cases s with
    | nil => cases hwhole
    | cons c s =>
      rw [List.cons_append]
      by_cases hc : c = '-'
      · rw [hc]
        rfl
      · rw [splitMinus_cons hc, splitMinus_cons hc]
        rfl
  refine split?_eq_some_iff.mpr ⟨s₁ ++ rest, s₂ ++ rest, ?_, ?_, ?_, ?_⟩
  · rw [hminus]
    exact hnegative
  · rw [hminus]
    exact splitWhole?_append h hwhole
  · exact splitFraction?_append h hfraction
  · exact splitExponent?_append h hexponent

/-- A number starts with its sign or a digit. -/
theorem exists_cons_of_split? {n : Numeral} (hs : split? s = some (n, rest)) :
    ∃ c t, s = c :: t ∧ (c = '-' ∨ c.isDigit = true) := by
  obtain ⟨s₁, -, -, hwhole, -, -⟩ := split?_eq_some_iff.mp hs
  cases s with
  | nil => cases hwhole
  | cons c s =>
    refine ⟨c, s, rfl, ?_⟩
    by_cases hc : c = '-'
    · exact .inl hc
    · right
      rw [splitMinus_cons hc] at hwhole
      -- without a digit in front there is nothing to cut off for the whole part
      by_contra hdigit
      unfold splitWhole? splitDigits at hwhole
      simp [hdigit] at hwhole

/-- What a number starts with is no spacing. -/
theorem not_isSpacing_of_split? {n : Numeral} {c : Char} (hs : split? (c :: s) = some (n, rest)) :
    isSpacing c = false := by
  obtain ⟨c', t, heq, hc⟩ := exists_cons_of_split? hs
  obtain ⟨rfl, rfl⟩ := List.cons.inj heq
  refine Bool.eq_false_iff.mpr fun hspacing => ?_
  have hnot : (c == '-' || c.isDigit) = false :=
    eq_false_of_isSpacing (p := fun c => c == '-' || c.isDigit) (by decide) hspacing
  rcases hc with hc | hc <;> simp [hc] at hnot

/-! ## How much is cut off -/

/-- No piece is longer than the text that it is cut off. -/
theorem length_splitDigits?_le {digits : List Char}
    (h : splitDigits? s = some (digits, rest)) : rest.length ≤ s.length := by
  unfold splitDigits? at h
  split at h
  · cases h
  · cases h
    exact (List.dropWhile_suffix Char.isDigit).length_le

theorem length_splitWhole?_lt {digits : List Char}
    (h : splitWhole? s = some (digits, rest)) : rest.length < s.length := by
  unfold splitWhole? at h
  have hcut := congrArg List.length (List.takeWhile_append_dropWhile (p := Char.isDigit) (l := s))
  rw [List.length_append] at hcut
  split at h
  · cases h
  · cases h
  · -- the whole part is the one piece that must not be empty, so here something is cut off
    next hne _ =>
    cases h
    have hdigits : s.takeWhile Char.isDigit ≠ [] := fun hnil => hne _ (Prod.ext hnil rfl)
    have hpos := List.length_pos_of_ne_nil hdigits
    show (s.dropWhile Char.isDigit).length < _
    omega

theorem length_splitFraction?_le {digits : List Char}
    (h : splitFraction? s = some (digits, rest)) : rest.length ≤ s.length := by
  unfold splitFraction? at h
  split at h
  · exact Nat.le_succ_of_le (length_splitDigits?_le h)
  · cases h
    exact Nat.le_refl _

theorem length_splitExponent?_le {negative : Bool} {digits : List Char}
    (h : splitExponent? s = some (negative, digits, rest)) : rest.length ≤ s.length := by
  cases s with
  | nil =>
    cases h
    exact Nat.le_refl _
  | cons c s =>
    by_cases hc : (c == 'e' || c == 'E') = true
    · rw [splitExponent?_cons hc] at h
      obtain ⟨⟨digits', rest'⟩, hdigits, heq⟩ := Option.map_eq_some_iff.mp h
      cases heq
      -- a sign may be cut off, too, in front of the digits
      have hsign : (Float64.splitSign s).2.length ≤ s.length := by
        unfold Float64.splitSign
        split <;> simp
      have hrest := length_splitDigits?_le hdigits
      show rest.length ≤ s.length + 1
      omega
    · unfold splitExponent? at h
      simp only [if_neg hc] at h
      cases h
      exact Nat.le_refl _

/-- A number takes up some of the text. -/
theorem length_split?_lt {n : Numeral} (h : split? s = some (n, rest)) :
    rest.length < s.length := by
  obtain ⟨s₁, s₂, -, hwhole, hfraction, hexponent⟩ := split?_eq_some_iff.mp h
  have hminus : (splitMinus s).2.length ≤ s.length := by
    unfold splitMinus
    split <;> simp
  have hlt := length_splitWhole?_lt hwhole
  have hle := length_splitFraction?_le hfraction
  have hle' := length_splitExponent?_le hexponent
  omega

/-! ## Digits up to something else -/

/-- Digits are the whole part of a number, unless a zero stands in front of others. -/
theorem splitWhole?_of_stopsAt {whole : List Char} (hne : whole ≠ [])
    (hwhole : ∀ c ∈ whole, c.isDigit = true)
    (hzero : whole = ['0'] ∨ whole.head? ≠ some '0') (hrest : StopsAt Char.isDigit rest) :
    splitWhole? (whole ++ rest) = some (whole, rest) := by
  have hcut : splitDigits (whole ++ rest) = (whole, rest) :=
    Prod.ext (takeWhile_append_of_stopsAt hwhole hrest) (dropWhile_append_of_stopsAt hwhole hrest)
  unfold splitWhole?
  rw [hcut]
  split
  · next heq => exact absurd (congrArg Prod.fst heq) hne
  · next heq =>
    -- a zero in front of further digits
    obtain rfl : whole = _ := congrArg Prod.fst heq
    rcases hzero with hzero | hzero
    · cases hzero
    · exact absurd rfl hzero
  · rfl

/-- Digits are cut off as far as they go. -/
theorem splitDigits?_of_stopsAt {digits : List Char} (hne : digits ≠ [])
    (hdigits : ∀ c ∈ digits, c.isDigit = true) (hrest : StopsAt Char.isDigit rest) :
    splitDigits? (digits ++ rest) = some (digits, rest) := by
  have hcut : splitDigits (digits ++ rest) = (digits, rest) :=
    Prod.ext (takeWhile_append_of_stopsAt hdigits hrest)
      (dropWhile_append_of_stopsAt hdigits hrest)
  unfold splitDigits?
  rw [hcut]
  split
  · next heq => exact absurd (congrArg Prod.fst heq) hne
  · rfl

/-! ## Whole numbers -/

/-- As long as the significand fits 64 bits, all digits go into it. -/
theorem accumulate_of_lt {digits : List Char} {significand : Nat}
    (h : Nat.ofDigitChars 10 digits significand < UInt64.size) :
    accumulate significand digits = (Nat.ofDigitChars 10 digits significand, []) := by
  -- Induction on the digits that are still to come. That all of them fit is known in the end only,
  -- so it must be brought back to each step before.
  induction digits generalizing significand with
  | nil => rfl
  | cons d digits ih =>
    rw [Nat.ofDigitChars_cons] at h ⊢
    -- digits further on only make the significand larger
    have hle : ∀ (ds : List Char) (m : Nat), m ≤ Nat.ofDigitChars 10 ds m := by
      intro ds
      induction ds with
      | nil => exact fun m => Nat.le_refl m
      | cons e ds ih =>
        intro m
        rw [Nat.ofDigitChars_cons]
        exact Nat.le_trans (by omega) (ih _)
    unfold accumulate
    simp only
    rw [if_pos (Nat.lt_of_le_of_lt (hle _ _) h), ih h]

/-- The digits of a number are a whole part: a zero stands in front only where it stands alone. -/
theorem splitWhole?_decimal (n : Nat) : splitWhole? (decimal n) = some (decimal n, []) := by
  have hdigits := List.all_eq_true.mp (all_isDigit_decimal n)
  have hzero : decimal n = ['0'] ∨ (decimal n).head? ≠ some '0' := by
    by_cases hhead : (decimal n).head? = some '0'
    · obtain ⟨s, hs⟩ := List.head?_eq_some_iff.mp hhead
      left
      rw [hs, eq_nil_of_decimal_eq hs]
    · exact .inr hhead
  have hcut := splitWhole?_of_stopsAt (decimal_ne_nil n) hdigits hzero stopsAt_nil
  rwa [List.append_nil] at hcut

/-- The numeral of a whole number. -/
def ofInt (n : Int) : Numeral :=
  { negative := decide (n < 0), whole := decimal n.natAbs, fraction := [],
    exponentNegative := false, exponent := [] }

/-- The notation of a whole number is its numeral. -/
theorem split?_signedDecimal (n : Int) : split? (signedDecimal n) = some (ofInt n, []) := by
  have hminus : splitMinus (signedDecimal n) = (decide (n < 0), decimal n.natAbs) := by
    rw [signedDecimal_eq]
    cases decide (n < 0) with
    | true => rfl
    | false =>
      obtain ⟨c, s, hdecimal, hc⟩ := exists_decimal_eq_cons n.natAbs
      rw [hdecimal]
      -- without a sign the notation starts with a digit, which is no minus sign
      refine splitMinus_cons ?_ s
      rintro rfl
      cases hc
  refine split?_eq_some_iff.mpr ⟨[], [], ?_, ?_, rfl, rfl⟩
  · rw [hminus]
    rfl
  · rw [hminus]
    exact splitWhole?_decimal n.natAbs

/-- **A whole number that fits 64 bits is read back.** -/
theorem number?_ofInt {n : Int} (h : Number.InRange (.whole n)) :
    (ofInt n).number? = some (.whole n) := by
  obtain ⟨hlow, hhigh⟩ := h
  have hvalue := ofDigitChars_decimal n.natAbs
  have hsize : n.natAbs < UInt64.size := by
    show n.natAbs < 18446744073709551616
    omega
  have haccumulate : accumulate 0 (decimal n.natAbs) = (n.natAbs, []) := by
    rw [accumulate_of_lt (hvalue.symm ▸ hsize), hvalue]
  have hmin : Int64.minValue.toInt = -2 ^ 63 := rfl
  unfold number? ofInt
  simp only [haccumulate, List.isEmpty_nil, Bool.true_and]
  -- A negative number may go down to the least one of 63 bits, while others may use all 64.
  by_cases hneg : n < 0
  · have hpos : 0 < n.natAbs := by omega
    have hback : -(n.natAbs : Int) = n := by omega
    have hfits : Int64.minValue.toInt ≤ n := hmin.symm ▸ hlow
    simp only [hneg, hpos, hback, hfits, decide_true, Bool.not_true, Bool.and_true,
      Bool.false_eq_true, if_false, if_true]
  · have hback : (n.natAbs : Int) = n := by omega
    simp [hneg, hback]

/-! ## Numbers that fit -/

/-- The significand fits 64 bits whatever the digits are, since those that would not fit are
left. -/
theorem accumulate_lt {digits : List Char} {significand : Nat} (h : significand < UInt64.size) :
    (accumulate significand digits).1 < UInt64.size := by
  induction digits generalizing significand with
  | nil => exact h
  | cons d digits ih =>
    unfold accumulate
    simp only
    split
    · next hnext => exact ih hnext
    · exact h

/-- A rank that is out of range is none. -/
theorem lt_of_scaledRank? {significand rank : Nat} {exponent : Int}
    (h : scaledRank? significand exponent = some rank) : rank < Float64.infinityRank := by
  unfold scaledRank? at h
  simp only [Option.ite_none_right_eq_some] at h
  obtain ⟨hlt, heq⟩ := h
  rw [← Option.some.inj heq]
  exact hlt

/-- **What is read is in range.** -/
theorem inRange_number? {numeral : Numeral} {n : Number} (h : numeral.number? = some n) :
    n.InRange := by
  have hwhole : (accumulate 0 numeral.whole).1 < 18446744073709551616 :=
    accumulate_lt (by decide)
  have hmin : Int64.minValue.toInt = -2 ^ 63 := rfl
  unfold number? at h
  simp only at h
  split at h
  · obtain rfl := Option.some.inj h
    show _ ∧ _
    omega
  · split at h
    · next hnegative =>
      obtain rfl := Option.some.inj h
      simp only [Bool.and_eq_true, decide_eq_true_eq] at hnegative
      have hlow := hnegative.2
      rw [hmin] at hlow
      show _ ∧ _
      omega
    · obtain ⟨rank, hrank, rfl⟩ := Option.map_eq_some_iff.mp h
      show (Float64.ofRank _ rank).isFinite = true
      rw [Float64.ofRank_of_lt _ (lt_of_scaledRank? hrank)]
      rfl

end Numeral

/-- The number is read back: its notation is a numeral, which is read as the number. -/
def Number.ReadsBack (n : Number) : Prop :=
  ∃ numeral : Numeral, Numeral.split? n.text = some (numeral, []) ∧ numeral.number? = some n

/-- Whole numbers are read back. Floating-point ones are not always, because their reader rounds
twice. -/
theorem Number.readsBack_whole {n : Int} (h : Number.InRange (.whole n)) :
    Number.ReadsBack (.whole n) :=
  ⟨Numeral.ofInt n, Numeral.split?_signedDecimal n, Numeral.number?_ofInt h⟩

end Json

end FilterQuery
