import FilterQuery.Float64.Shortest
import FilterQuery.Text.Numeral

/-!
# Decimal notation of floating-point numbers

Two notations are in use. In a filter line and in listings a number is always written positionally
and without a needless point: `1`, `0.0000001`, `-0`, `NaN`, `inf`. In JSON a number is written so
that it can be told from a whole one, with a point or an exponent; large and small magnitudes are
written with an exponent; and the non-finite numbers have no notation at all.
-/

namespace FilterQuery.Float64

open Text

/-- The significant digits of a decimal and the place of the point: the value is
`0.d₁d₂… * 10 ^ point`. Zero has no significant digit. -/
def significant (d : Decimal) : List Char × Int :=
  if d.coefficient = 0 then ([], 0)
  else
    let digits := decimal d.coefficient
    ((digits.reverse.dropWhile (· == '0')).reverse, digits.length + d.exponent)

/-- Digits written with the point at the given place. The fraction is left out when it is empty. -/
def positional (digits : List Char) (point : Int) : List Char :=
  match point with
  | .ofNat 0 => '0' :: fraction digits
  | .ofNat n =>
    digits.take n ++ List.replicate (n - digits.length) '0' ++ fraction (digits.drop n)
  | .negSucc n => '0' :: fraction (List.replicate (n + 1) '0' ++ digits)
where
  fraction : List Char → List Char
    | [] => []
    | digits => '.' :: digits

/-- Digits written with the point behind the first one and an exponent whose sign is explicit. -/
def scientific (digits : List Char) (point : Int) : List Char :=
  let exponent := point - 1
  let sign := if exponent < 0 then '-' else '+'
  positional digits 1 ++ ['e', sign] ++ decimal exponent.natAbs

/-- A sign in front of a numeral. -/
def signed (negative : Bool) (numeral : List Char) : List Char :=
  if negative then '-' :: numeral else numeral

/-- The plain notation of a number: positional, and as short as it reads back. Of two equally near
decimals the larger magnitude is taken. -/
def plain : Float64 → List Char
  | .nan => "NaN".toList
  | .infinity negative => signed negative "inf".toList
  | .finite negative rank =>
    let (digits, point) := significant (shortest .up rank)
    signed negative (positional digits point)

/-- The magnitudes `10 ^ e` that JSON writes positionally. -/
def isPositionalExponent (e : Int) : Bool := -5 ≤ e && e < 16

/-- The JSON notation of a number, if it has one. A positional numeral always has a point. Of two
equally near decimals the one with the even last digit is taken. -/
def json? : Float64 → Option (List Char)
  | .finite negative rank =>
    let (digits, point) := significant (shortest .even rank)
    let numeral :=
      if digits.isEmpty then "0.0".toList
      else if isPositionalExponent (point - 1) then
        let numeral := positional digits point
        if numeral.contains '.' then numeral else numeral ++ ".0".toList
      else scientific digits point
    some (signed negative numeral)
  | _ => none

end FilterQuery.Float64
