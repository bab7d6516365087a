import FilterQuery.Float64.Basic

/-!
# Rounding to binary64

The nearest floating-point number to an exact fraction, of two equally near ones the one with the
even rank. All arithmetic is on natural numbers: a fraction `num / den` counted in units of
`2 ^ -1074` lies in the binade that the bit length of its quotient tells, and there rounding is a
division rounded to the nearest whole number.
-/

namespace FilterQuery.Float64

/-- `num / den` rounded to the nearest whole number, a half going to the even neighbour. -/
def divEven (num den : Nat) : Nat :=
  let quotient := num / den
  let twice := 2 * (num % den)
  if twice < den ∨ (twice = den ∧ quotient % 2 = 0) then quotient else quotient + 1

/-- The rank of the magnitude nearest to `num / den` units of `2 ^ -1074`. A result of
`infinityRank` or more means that the magnitude is beyond the finite numbers. -/
def nearestRank (num den : Nat) : Nat :=
  let binade := (num / den).log2 - 52
  binade * binadeSize + divEven num (den * Nat.pow 2 binade)

/-- The number of the given sign and rank, infinite when there is no finite one. -/
def ofRank (negative : Bool) (rank : Nat) : Float64 :=
  if h : rank < infinityRank then .finite negative ⟨rank, h⟩ else .infinity negative

/-- The floating-point number nearest to the fraction `num / den`. -/
def ofRatio (negative : Bool) (num den : Nat) : Float64 :=
  ofRank negative (nearestRank (num * one) den)

/-! ## Decimal fractions -/

/-- A decimal exponent from which every non-zero coefficient overflows, and below whose negative no
single-digit coefficient reaches the least positive number. -/
def decimalLimit : Nat := 400

/-- The floating-point number nearest to `coefficient * 10 ^ exponent`. Exponents far beyond the
range of the format are decided by their size alone, so that the powers of ten stay small. -/
def ofDecimal (negative : Bool) (coefficient : Nat) (exponent : Int) : Float64 :=
  if coefficient = 0 then zero negative
  else match exponent with
    | .ofNat n =>
      if decimalLimit < n then .infinity negative
      else ofRatio negative (coefficient * Nat.pow 10 n) 1
    | .negSucc n =>
      if coefficient.log2 + decimalLimit < n then zero negative
      else ofRatio negative coefficient (Nat.pow 10 (n + 1))

end FilterQuery.Float64
