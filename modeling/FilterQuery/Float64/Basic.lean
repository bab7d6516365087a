/-!
# Binary floating-point numbers

The numbers of the IEEE 754 format binary64, as plain data. A finite number is a sign and a *rank*:
its place among the non-negative finite numbers in increasing order. Rank `0` is zero, rank `1` the
least positive number `2 ^ -1074`, and consecutive ranks are consecutive numbers, so neighbours and
comparison need no case distinction on binades. The rank is also the encoding of the number without
its sign bit.

There is one NaN, so equality of the data is equality of what any answer can show.
-/

namespace FilterQuery

/-- The number of magnitudes in one binade, `2 ^ 52`. -/
def Float64.binadeSize : Nat := 4503599627370496

/-- The number of finite magnitudes; the rank of infinity. -/
def Float64.infinityRank : Nat := 2047 * binadeSize

/-- A binary64 floating-point number. -/
inductive Float64 where
  | nan
  | infinity (negative : Bool)
  | finite (negative : Bool) (rank : Fin Float64.infinityRank)
deriving DecidableEq, Repr

namespace Float64

/-- The magnitude with the given rank, counted in units of `2 ^ -1074`. The first two binades have
spacing one, each later one twice the spacing of its predecessor. -/
def units (rank : Nat) : Nat :=
  let binade := rank / binadeSize
  if binade = 0 then rank else (binadeSize + rank % binadeSize) * Nat.pow 2 (binade - 1)

/-- The magnitude one, counted in units of `2 ^ -1074`. -/
def one : Nat := Nat.pow 2 1074

def zero (negative : Bool) : Float64 := .finite negative ⟨0, by decide⟩

instance : Inhabited Float64 := ⟨zero false⟩

def isFinite : Float64 → Bool
  | .finite .. => true
  | _ => false

/-! ## The 64-bit encoding -/

/-- The top bit of a 64-bit word, `2 ^ 63`. -/
def signBit : Nat := 9223372036854775808

/-- The number that a 64-bit word encodes: the sign in the top bit, the rank below it. -/
def ofBits (bits : UInt64) : Float64 :=
  let negative := bits.toNat / signBit == 1
  let rank := bits.toNat % signBit
  if h : rank < infinityRank then .finite negative ⟨rank, h⟩
  else if rank = infinityRank then .infinity negative
  else .nan

/-- The 64-bit word that encodes a number; NaN is the quiet one with an empty payload. -/
def toBits : Float64 → UInt64
  | .nan => 0x7FF8000000000000
  | .infinity negative => encode negative infinityRank
  | .finite negative rank => encode negative rank
where
  encode (negative : Bool) (rank : Nat) : UInt64 :=
    UInt64.ofNat ((if negative then signBit else 0) + rank)

end Float64

end FilterQuery
