import FilterQuery.Json.Basic

/-!
# Reading JSON numbers

A JSON number is an optional minus sign, a whole part without needless zeros, and optionally a
fraction and an exponent. Without fraction and exponent it is a whole number, as long as it fits 64
bits; only minus zero, which no whole number can hold, is a floating-point number at once.

A floating-point number is computed in two roundings. As many leading digits as fit 64 bits make the
significand, and the other digits count by their place only. The significand is rounded to binary64
and then multiplied with, or divided by, a power of ten, which is rounded to binary64 itself. The
result is the nearest number wherever significand and power are exact, that is up to `2 ^ 53` and
`10 ^ 22`; beyond, it can be off in the last place.
-/

namespace FilterQuery.Json

open Text

/-- The parts of a JSON number. An absent fraction or exponent is empty. -/
structure Numeral where
  negative : Bool
  whole : List Char
  fraction : List Char
  exponentNegative : Bool
  exponent : List Char
deriving DecidableEq, Repr

namespace Numeral

def splitDigits (s : List Char) : List Char × List Char :=
  (s.takeWhile Char.isDigit, s.dropWhile Char.isDigit)

/-- Cuts a text after its leading digits, of which there must be one. -/
def splitDigits? (s : List Char) : Option (List Char × List Char) :=
  match splitDigits s with
  | ([], _) => none
  | cut => some cut

/-- Cuts a text after a whole part. A zero stands alone. -/
def splitWhole? (s : List Char) : Option (List Char × List Char) :=
  match splitDigits s with
  | ([], _) | ('0' :: _ :: _, _) => none
  | cut => some cut

/-- Cuts a text after the fraction, if it starts with one. -/
def splitFraction? : List Char → Option (List Char × List Char)
  | '.' :: s => splitDigits? s
  | s => some ([], s)

/-- Cuts a text after the exponent, if it starts with one. The flag tells that it is negative. -/
def splitExponent? : List Char → Option (Bool × List Char × List Char)
  | [] => some (false, [], [])
  | c :: s =>
    if c == 'e' || c == 'E' then
      let (negative, s) := match s with
        | '-' :: s => (true, s)
        | '+' :: s => (false, s)
        | s => (false, s)
      (splitDigits? s).map fun (digits, s) => (negative, digits, s)
    else some (false, [], c :: s)

/-- Cuts a text after the number it starts with. -/
def split? (s : List Char) : Option (Numeral × List Char) := do
  let (negative, s) := match s with
    | '-' :: s => (true, s)
    | s => (false, s)
  let (whole, s) ← splitWhole? s
  let (fraction, s) ← splitFraction? s
  let (exponentNegative, exponent, s) ← splitExponent? s
  return ({ negative, whole, fraction, exponentNegative, exponent }, s)

/-! ## The number denoted -/

/-- Appends digits to a significand as long as it fits 64 bits, and returns the digits left over. -/
def accumulate (significand : Nat) : List Char → Nat × List Char
  | [] => (significand, [])
  | d :: ds =>
    let next := 10 * significand + (d.toNat - '0'.toNat)
    if next < UInt64.size then accumulate next ds else (significand, d :: ds)

/-- The rank of the rounded power of ten. -/
def powerRank (n : Nat) : Nat := Float64.nearestRank (Nat.pow 10 n * Float64.one) 1

/-- The greatest exponent of a power of ten that is a finite number. -/
def greatestPower : Nat := 308

/-- The rank of the rounded product of two magnitudes. -/
def productRank (a b : Nat) : Nat :=
  Float64.nearestRank (Float64.units a * Float64.units b) Float64.one

/-- The rank of the rounded quotient of two magnitudes. -/
def quotientRank (a b : Nat) : Nat :=
  Float64.nearestRank (Float64.units a * Float64.one) (Float64.units b)

/-- A magnitude divided by a power of ten, in steps of at most `10 ^ 308`. -/
def divideByPower (rank n : Nat) : Nat :=
  if n ≤ greatestPower then quotientRank rank (powerRank n)
  else if rank = 0 then 0
  else divideByPower (quotientRank rank (powerRank greatestPower)) (n - greatestPower)
termination_by n
decreasing_by simp only [greatestPower] at *; omega

/-- The rank of `significand * 10 ^ exponent`, computed in two roundings. There is none when the
magnitude is beyond the finite numbers. -/
def scaledRank? (significand : Nat) (exponent : Int) : Option Nat :=
  let rank := Float64.nearestRank (significand * Float64.one) 1
  let scaled := match exponent with
    | .ofNat n =>
      if rank = 0 then 0
      else if greatestPower < n then Float64.infinityRank
      else productRank rank (powerRank n)
    | .negSucc n => divideByPower rank (n + 1)
  if scaled < Float64.infinityRank then some scaled else none

/-- The exponent that the numeral itself states. -/
def statedExponent (n : Numeral) : Int :=
  let e : Int := Nat.ofDigitChars 10 n.exponent 0
  if n.exponentNegative then -e else e

/-- The number that the numeral denotes, if it is finite. -/
def number? (n : Numeral) : Option Number :=
  let (whole, wholeLeft) := accumulate 0 n.whole
  let isWhole := wholeLeft.isEmpty && n.fraction.isEmpty && n.exponent.isEmpty
  if isWhole && !n.negative then some (.whole whole)
  else if isWhole && 0 < whole && Int64.minValue.toInt ≤ -(whole : Int) then some (.whole (-whole))
  else
    let (significand, fractionLeft) := accumulate whole n.fraction
    let exponent := n.statedExponent + wholeLeft.length + fractionLeft.length - n.fraction.length
    (scaledRank? significand exponent).map fun rank => .float (.ofRank n.negative rank)

end Numeral

end FilterQuery.Json
