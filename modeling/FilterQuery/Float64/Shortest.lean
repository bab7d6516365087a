import FilterQuery.Float64.Rounding

/-!
# Shortest decimals

The decimal that stands for a floating-point number in a text has the fewest digits that read back
as that number, and among those it is the nearest. The search goes over the decimal grids with one,
two, … seventeen digits; on each it tests the two grid points next to the exact value. If none of
them reads back, the exact decimal expansion is taken, which always does.
-/

namespace FilterQuery.Float64

/-- Which of two equally near decimals to take. -/
inductive Tie where
  | even
  | up
deriving DecidableEq, Repr

/-- A decimal `coefficient * 10 ^ exponent`. -/
structure Decimal where
  coefficient : Nat
  exponent : Int
deriving DecidableEq, Repr

/-- The magnitude of `units` units divided by `10 ^ exponent`, as a numerator and denominator. -/
def gridRatio (units : Nat) (exponent : Int) : Nat × Nat :=
  match exponent with
  | .ofNat n => (units, one * Nat.pow 10 n)
  | .negSucc n => (units * Nat.pow 10 (n + 1), one)

/-- The exponent of the leading decimal digit of a positive magnitude, given in units of
`2 ^ -1074`. Scaling by `10 ^ 400` brings every magnitude above one, where the leading digit's
place is told by the number of digits. -/
def leadingExponent (units : Nat) : Int :=
  (Nat.toDigits 10 (units * Nat.pow 10 400 / one)).length - 401

/-- The point of the grid with spacing `10 ^ exponent` that stands for the magnitude with the given
rank, if one reads back as it. -/
def onGrid? (tie : Tie) (rank : Fin infinityRank) (exponent : Int) : Option Decimal :=
  let (num, den) := gridRatio (units rank) exponent
  let low := num / den
  let twice := 2 * (num % den)
  let readsBack (c : Nat) : Bool := ofDecimal false c exponent == .finite false rank
  let preferLow := twice < den || (twice == den && tie == .even && low % 2 == 0)
  let candidates := if preferLow then [low, low + 1] else [low + 1, low]
  (candidates.find? readsBack).map fun c => ⟨c, exponent⟩

/-- The exact decimal expansion of the magnitude with the given rank. -/
def exactDecimal (rank : Nat) : Decimal := ⟨units rank * Nat.pow 5 1074, -1074⟩

/-- The shortest decimal that reads back as the magnitude with the given rank. -/
def shortest (tie : Tie) (rank : Fin infinityRank) : Decimal :=
  let lead := leadingExponent (units rank)
  let grids := (List.range 17).map fun (n : Nat) => lead - n
  (grids.findSome? (onGrid? tie rank)).getD (exactDecimal rank)

end FilterQuery.Float64
