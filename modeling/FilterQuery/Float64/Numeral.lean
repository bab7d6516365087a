import FilterQuery.Float64.Rounding
import FilterQuery.Text.Caseless
import FilterQuery.Text.Numeral

/-!
# Reading floating-point numerals

A numeral is an optional sign, digits with an optional decimal point, and an optional exponent; or
one of the words `inf`, `infinity` and `nan` in any letter case. The digits may stand on either side
of the point, as long as there is one. The result is the number nearest to the exact decimal value.
-/

namespace FilterQuery.Float64

open Text

/-- A sign in front of a text, `true` for `-`, and the text without it. -/
def splitSign : List Char → Bool × List Char
  | '-' :: s => (true, s)
  | '+' :: s => (false, s)
  | s => (false, s)

/-- The exponent part of a numeral: nothing, or `e` and a whole number that may have a sign. -/
def exponent? : List Char → Option Int
  | [] => some 0
  | c :: s =>
    if c == 'e' || c == 'E' then
      let (negative, digits) := splitSign s
      (natural? digits).map fun n => if negative then -(n : Int) else n
    else none

/-- The coefficient and exponent that an unsigned decimal numeral denotes. -/
def decimal? (s : List Char) : Option (Nat × Int) :=
  let whole := s.takeWhile Char.isDigit
  let (fraction, tail) := match s.dropWhile Char.isDigit with
    | '.' :: s => (s.takeWhile Char.isDigit, s.dropWhile Char.isDigit)
    | s => ([], s)
  let digits := whole ++ fraction
  if digits.isEmpty then none
  else (exponent? tail).map fun e => (Nat.ofDigitChars 10 digits 0, e - fraction.length)

def ofText? (s : List Char) : Option Float64 :=
  let (negative, body) := splitSign s
  if caselessEq body "nan".toList then some .nan
  else if caselessEq body "inf".toList || caselessEq body "infinity".toList then
    some (.infinity negative)
  else (decimal? body).map fun (coefficient, exponent) => ofDecimal negative coefficient exponent

end FilterQuery.Float64
