import FilterQuery.Float64.Numeral
import FilterQuery.Json.Scan
import FilterQuery.Toml.Basic

/-!
# TOML keys and scalars

The parts of a TOML document that hold no other parts: strings of four sorts, whole numbers in four
bases, floating-point numbers, truth values, dates and times. Each function cuts a text after the
part that it starts with.
-/

namespace FilterQuery.Toml

open Text

/-! ## Blanks and comments -/

/-- Space and tab. -/
def isGap (c : Char) : Bool := c == ' ' || c == '\t'

/-- Drops the gap at the start of a text. -/
def skipGap (s : List Char) : List Char := s.dropWhile isGap

/-- The characters that may stand in a comment or a string: no control character but the tab. -/
def isPlain (c : Char) : Bool := c == '\t' || (' ' ≤ c && c != '\x7f')

/-- Cuts a text after a line feed, which may have a carriage return in front of it. -/
def splitNewline? : List Char → Option (List Char)
  | '\n' :: s => some s
  | '\r' :: '\n' :: s => some s
  | _ => none

/-- Drops the comment at the start of a text. -/
def skipComment : List Char → List Char
  | '#' :: s => s.dropWhile isPlain
  | s => s

/-- Cuts a text after the end of a line, in front of which only a comment may stand. -/
def splitLineEnd? (s : List Char) : Option (List Char) :=
  match skipComment (skipGap s) with
  | [] => some []
  | s => splitNewline? s

/-! ## Strings -/

/-- The character with the code point that hexadecimal digits denote. -/
def scalar? (digits : List Char) : Option Char := do
  let values ← digits.mapM Json.Scan.hexValue?
  let n := values.foldl (fun n d => 16 * n + d) 0
  if n < 0xD800 ∨ (0xDFFF < n ∧ n < 0x110000) then some (Char.ofNat n) else none

def unescape? (c : Char) : Option Char :=
  if c == '"' || c == '\\' then some c
  else if c == 'b' then some '\x08'
  else if c == 'f' then some '\x0c'
  else if c == 'n' then some '\n'
  else if c == 'r' then some '\r'
  else if c == 't' then some '\t'
  else none

/-- One more character in front of the content of a string. -/
def more (c : Char) (cut : Option (List Char × List Char)) : Option (List Char × List Char) :=
  cut.map fun (content, s) => (c :: content, s)

def basicString? : List Char → Option (List Char × List Char)
  | '"' :: s => some ([], s)
  | '\\' :: 'u' :: a :: b :: c :: d :: s => do
    more (← scalar? [a, b, c, d]) (basicString? s)
  | '\\' :: 'U' :: a :: b :: c :: d :: e :: f :: g :: h :: s => do
    more (← scalar? [a, b, c, d, e, f, g, h]) (basicString? s)
  | '\\' :: c :: s => do more (← unescape? c) (basicString? s)
  | c :: s => if isPlain c && c != '\\' then more c (basicString? s) else none
  | [] => none

def literalString? : List Char → Option (List Char × List Char)
  | '\'' :: s => some ([], s)
  | c :: s => if isPlain c then more c (literalString? s) else none
  | [] => none

/-- The rest of a basic string of several lines. Up to two quotes may stand directly in front of the
three that end it. A backslash at the end of a line takes away the blanks up to the next visible
character; `skipping` tells that they are being taken away. -/
def basicLines? (skipping : Bool) : List Char → Option (List Char × List Char)
  | '"' :: '"' :: '"' :: '"' :: '"' :: s => some (['"', '"'], s)
  | '"' :: '"' :: '"' :: '"' :: s => some (['"'], s)
  | '"' :: '"' :: '"' :: s => some ([], s)
  | '\\' :: 'u' :: a :: b :: c :: d :: s => do
    more (← scalar? [a, b, c, d]) (basicLines? false s)
  | '\\' :: 'U' :: a :: b :: c :: d :: e :: f :: g :: h :: s => do
    more (← scalar? [a, b, c, d, e, f, g, h]) (basicLines? false s)
  | '\\' :: c :: s =>
    if (splitNewline? (skipGap (c :: s))).isSome then basicLines? true (c :: s)
    else do more (← unescape? c) (basicLines? false s)
  | '\r' :: '\n' :: s =>
    if skipping then basicLines? true s else more '\n' (basicLines? false s)
  | c :: s =>
    if skipping && (isGap c || c == '\n') then basicLines? true s
    else if (isPlain c && c != '\\') || c == '\n' then more c (basicLines? false s)
    else none
  | [] => none

def literalLines? : List Char → Option (List Char × List Char)
  | '\'' :: '\'' :: '\'' :: '\'' :: '\'' :: s => some (['\'', '\''], s)
  | '\'' :: '\'' :: '\'' :: '\'' :: s => some (['\''], s)
  | '\'' :: '\'' :: '\'' :: s => some ([], s)
  | '\r' :: '\n' :: s => more '\n' (literalLines? s)
  | c :: s => if isPlain c || c == '\n' then more c (literalLines? s) else none
  | [] => none

/-- Drops the line feed directly behind the opening quotes of a string of several lines. -/
def skipFirstNewline (s : List Char) : List Char := (splitNewline? s).getD s

def string? : List Char → Option (Toml × List Char)
  | '"' :: '"' :: '"' :: s => finish (basicLines? false (skipFirstNewline s))
  | '"' :: s => finish (basicString? s)
  | '\'' :: '\'' :: '\'' :: s => finish (literalLines? (skipFirstNewline s))
  | '\'' :: s => finish (literalString? s)
  | _ => none
where
  finish (cut : Option (List Char × List Char)) : Option (Toml × List Char) :=
    cut.map fun (content, s) => (string (String.ofList content), s)

/-! ## Keys -/

/-- The characters of a key without quotes. -/
def isBareKeyChar (c : Char) : Bool := c.isAlphanum || c == '-' || c == '_'

/-- A key without dots. -/
def simpleKey? : List Char → Option (String × List Char)
  | '"' :: s => (basicString? s).map fun (key, s) => (String.ofList key, s)
  | '\'' :: s => (literalString? s).map fun (key, s) => (String.ofList key, s)
  | s =>
    match s.takeWhile isBareKeyChar with
    | [] => none
    | key => some (String.ofList key, s.dropWhile isBareKeyChar)

/-- A key: simple keys between dots. The fuel bounds their number. -/
def key? (fuel : Nat) (s : List Char) : Option (List String × List Char) :=
  match fuel with
  | 0 => none
  | fuel + 1 => do
    let (key, s) ← simpleKey? (skipGap s)
    match skipGap s with
    | '.' :: s => do
      let (keys, s) ← key? fuel s
      return (key :: keys, s)
    | s => return ([key], s)

/-! ## Numbers -/

/-- Digits of a base, with underscores between them. -/
def digits? (isDigit : Char → Bool) : List Char → Option (List Char × List Char)
  | c :: s =>
    if isDigit c then
      match s with
      | '_' :: d :: s => if isDigit d then more c (digits? isDigit (d :: s)) else none
      | '_' :: [] => none
      | d :: s => if isDigit d then more c (digits? isDigit (d :: s)) else some ([c], d :: s)
      | [] => some ([c], [])
    else none
  | [] => none

/-- The sign of a number and the text behind it. -/
def sign? : List Char → Option Char × List Char
  | '+' :: s => (some '+', s)
  | '-' :: s => (some '-', s)
  | s => (none, s)

/-- The digits of a decimal whole number. A zero stands alone. -/
def decimalDigits? : List Char → Option (List Char × List Char)
  | '0' :: s => some (['0'], s)
  | s => digits? Char.isDigit s

/-- The whole number that digits of a base denote. -/
def ofDigits? (base : Nat) (digits : List Char) : Option Nat := do
  let values ← digits.mapM Json.Scan.hexValue?
  return values.foldl (fun n d => base * n + d) 0

/-- A whole number, which must fit 64 bits. -/
def integer? (s : List Char) : Option (Toml × List Char) :=
  match s with
  | '0' :: 'x' :: s => based 16 (fun c => (Json.Scan.hexValue? c).isSome) s
  | '0' :: 'o' :: s => based 8 (fun c => '0' ≤ c && c ≤ '7') s
  | '0' :: 'b' :: s => based 2 (fun c => c == '0' || c == '1') s
  | s => do
    let (sign, s) := sign? s
    let (digits, s) ← decimalDigits? s
    let n ← ofDigits? 10 digits
    fitting (if sign = some '-' then -(n : Int) else n) s
where
  fitting (n : Int) (s : List Char) : Option (Toml × List Char) :=
    (signedOfInt? n).map fun n => (integer n.toInt, s)
  based (base : Nat) (isDigit : Char → Bool) (s : List Char) : Option (Toml × List Char) := do
    let (digits, s) ← digits? isDigit s
    fitting (← ofDigits? base digits) s

/-- The exponent of a floating-point number, without underscores. -/
def exponent? : List Char → Option (List Char × List Char)
  | [] => none
  | c :: s =>
    if c == 'e' || c == 'E' then do
      let (sign, s) := sign? s
      let (digits, s) ← digits? Char.isDigit s
      return ('e' :: sign.toList ++ digits, s)
    else none

/-- A floating-point number written with digits: it has a fraction, an exponent or both. One that is
too large is refused, but a negative one is not. -/
def decimalFloat? (s : List Char) : Option (Toml × List Char) := do
  let (sign, s) := sign? s
  let (whole, s) ← decimalDigits? s
  let (tail, s) ← match s with
    | '.' :: s => do
      let (fraction, s) ← digits? Char.isDigit s
      let (exponent, s) := (exponent? s).getD ([], s)
      pure ('.' :: fraction ++ exponent, s)
    | s => exponent? s
  let x ← Float64.ofText? (sign.toList ++ whole ++ tail)
  if x = .infinity false then none else some (float x, s)

def float? (s : List Char) : Option (Toml × List Char) :=
  decimalFloat? s <|>
    match sign? s with
    | (sign, 'i' :: 'n' :: 'f' :: s) => some (float (.infinity (sign = some '-')), s)
    | (_, 'n' :: 'a' :: 'n' :: s) => some (float .nan, s)
    | _ => none

/-! ## Dates and times -/

/-- A number of two digits between the given bounds. -/
def twoDigits? (least greatest : Nat) : List Char → Option (Nat × List Char)
  | a :: b :: s =>
    if a.isDigit && b.isDigit then
      let n := Nat.ofDigitChars 10 [a, b] 0
      if least ≤ n ∧ n ≤ greatest then some (n, s) else none
    else none
  | _ => none

/-- The number of days of a month. -/
def daysOf (year month : Nat) : Nat :=
  if month = 2 then
    if year % 4 = 0 ∧ (year % 100 ≠ 0 ∨ year % 400 = 0) then 29 else 28
  else if month = 4 ∨ month = 6 ∨ month = 9 ∨ month = 11 then 30
  else 31

def expect? (c : Char) : List Char → Option (List Char)
  | d :: s => if c = d then some s else none
  | [] => none

def date? : List Char → Option (List Char)
  | a :: b :: c :: d :: s => do
    if !([a, b, c, d].all Char.isDigit) then none
    let (month, s) ← twoDigits? 1 12 (← expect? '-' s)
    let (_, s) ← twoDigits? 1 (daysOf (Nat.ofDigitChars 10 [a, b, c, d] 0) month)
      (← expect? '-' s)
    return s
  | _ => none

def time? (s : List Char) : Option (List Char) := do
  let (_, s) ← twoDigits? 0 23 s
  let (_, s) ← twoDigits? 0 59 (← expect? ':' s)
  let (_, s) ← twoDigits? 0 60 (← expect? ':' s)
  match s with
  | '.' :: d :: t => if d.isDigit then return t.dropWhile Char.isDigit else return s
  | _ => return s

/-- Cuts a text after the distance to universal time. -/
def offset? : List Char → Option (List Char)
  | 'Z' :: s | 'z' :: s => some s
  | c :: s => do
    if !(c == '+' || c == '-') then none
    let (_, s) ← twoDigits? 0 23 s
    let (_, s) ← twoDigits? 0 59 (← expect? ':' s)
    return s
  | [] => none

/-- A date, a time, or both. -/
def dateTime? (s : List Char) : Option (Toml × List Char) :=
  match date? s with
  | some s =>
    let later := match s with
      | c :: t => if c == 'T' || c == 't' || c == ' ' then time? t else none
      | [] => none
    match later with
    | some t => some (dateTime, (offset? t).getD t)
    | none => some (dateTime, s)
  | none => (time? s).map fun s => (dateTime, s)

end FilterQuery.Toml
