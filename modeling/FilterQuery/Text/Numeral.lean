/-!
# Decimal numerals of machine integers

Whole numbers are written in decimal, without leading zeros and with `-` in front of negative ones.
The readers are a little more generous: they take leading zeros and a sign `+`, and refuse what does
not fit 64 bits.
-/

namespace FilterQuery.Text

def decimal (n : Nat) : List Char := Nat.toDigits 10 n

def signedDecimal : Int → List Char
  | .ofNat n => decimal n
  | .negSucc n => '-' :: decimal (n + 1)

/-- The number that a non-empty run of decimal digits denotes. -/
def natural? (s : List Char) : Option Nat :=
  if !s.isEmpty && s.all Char.isDigit then some (Nat.ofDigitChars 10 s 0) else none

/-- The unsigned 64-bit integer with a value, if there is one. -/
def unsignedOfNat? (n : Nat) : Option UInt64 :=
  if n < UInt64.size then some (UInt64.ofNat n) else none

/-- The signed 64-bit integer with a value, if there is one. -/
def signedOfInt? (n : Int) : Option Int64 :=
  if Int64.minValue.toInt ≤ n ∧ n ≤ Int64.maxValue.toInt then some (Int64.ofInt n) else none

/-- Reads an unsigned 64-bit integer: an optional `+`, then digits. -/
def unsigned64? (s : List Char) : Option UInt64 := do
  let digits := match s with
    | '+' :: digits => digits
    | digits => digits
  unsignedOfNat? (← natural? digits)

/-- Reads a signed 64-bit integer: an optional `+` or `-`, then digits. -/
def signed64? (s : List Char) : Option Int64 := do
  let n ← match s with
    | '-' :: digits => (natural? digits).map fun n => -(n : Int)
    | '+' :: digits => (natural? digits).map fun n => (n : Int)
    | digits => (natural? digits).map fun n => (n : Int)
  signedOfInt? n

/-! ## Reading what was written -/

theorem decimal_ne_nil (n : Nat) : decimal n ≠ [] := Nat.toDigits_ne_nil

theorem all_isDigit_decimal (n : Nat) : (decimal n).all Char.isDigit := by
  simp only [List.all_eq_true]
  exact fun _ h => Nat.isDigit_of_mem_toDigits (by decide) (by decide) h

@[simp] theorem natural?_decimal (n : Nat) : natural? (decimal n) = some n := by
  simp [natural?, decimal_ne_nil, all_isDigit_decimal]
  exact Nat.ofDigitChars_toDigits (by decide) (by decide)

end FilterQuery.Text
