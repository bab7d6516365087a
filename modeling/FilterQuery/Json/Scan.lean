import FilterQuery.Json.Numeral
import FilterQuery.Text.Blank

/-!
# Scanning JSON texts

A scan is what a text shows when it is read from left to right. It has the shape of a document as
far as the text is one, and it says where the text stops being one: a container whose text goes
wrong is not closed. Whoever decodes a scan in the order of the text therefore meets what is wrong
with the notation and what is wrong with the content in the order in which they stand in the text.

Some faults concern only those who look at a value: a number that is too large and a string with an
unpaired surrogate are scanned, but nothing can be read out of them. Members that nobody asks for
may hold such values.
-/

namespace FilterQuery.Json

open Text

/-- What a text shows, read from left to right. -/
inductive Scan where
  /-- No JSON value starts here. -/
  | broken
  | null
  | bool (b : Bool)
  /-- A number, `none` if it is too large for a floating-point number. -/
  | number (n : Option Number)
  /-- A string, `none` if it has an unpaired surrogate. -/
  | string (s : Option String)
  /-- An array with the items that were found, and whether it is closed behind them. -/
  | array (items : List Scan) (closed : Bool)
  /-- An object with the members that were found, and whether it is closed behind them. -/
  | object (members : List (Option String × Scan)) (closed : Bool)
  /-- An object whose first key is no string but this. -/
  | badKey (key : Scan)

namespace Scan

instance : Inhabited Scan := ⟨.broken⟩

/-! ## Strings -/

def hexValue? (c : Char) : Option Nat :=
  if c.isDigit then some (c.toNat - '0'.toNat)
  else if 'a' ≤ c ∧ c ≤ 'f' then some (c.toNat - 'a'.toNat + 10)
  else if 'A' ≤ c ∧ c ≤ 'F' then some (c.toNat - 'A'.toNat + 10)
  else none

/-- The value of a four-digit hexadecimal numeral. -/
def hexUnit? (a b c d : Char) : Option Nat := do
  return 4096 * (← hexValue? a) + 256 * (← hexValue? b) + 16 * (← hexValue? c) + (← hexValue? d)

/-- The character that a backslash and this one stand for. -/
def unescape? (c : Char) : Option Char :=
  if c == '"' || c == '\\' || c == '/' then some c
  else if c == 'b' then some '\x08'
  else if c == 'f' then some '\x0c'
  else if c == 'n' then some '\n'
  else if c == 'r' then some '\r'
  else if c == 't' then some '\t'
  else none

/-- Cuts a text after the quote that ends a string. The content is returned as code points, among
which an escape may have put surrogates. -/
def splitString? : List Char → Option (List Nat × List Char)
  | '"' :: s => some ([], s)
  | '\\' :: 'u' :: a :: b :: c :: d :: s => do
    let unit ← hexUnit? a b c d
    let (units, rest) ← splitString? s
    return (unit :: units, rest)
  | '\\' :: c :: s => do
    let c ← unescape? c
    let (units, rest) ← splitString? s
    return (c.toNat :: units, rest)
  | c :: s =>
    if c < ' ' || c == '\\' then none
    else do
      let (units, rest) ← splitString? s
      return (c.toNat :: units, rest)
  | [] => none

/-- The first half of a pair of surrogates. -/
def isHighSurrogate (n : Nat) : Bool := 0xD800 ≤ n && n ≤ 0xDBFF

/-- The second half of a pair of surrogates. -/
def isLowSurrogate (n : Nat) : Bool := 0xDC00 ≤ n && n ≤ 0xDFFF

/-- The characters of a string whose surrogates all come in pairs. -/
def pairSurrogates? : List Nat → Option (List Char)
  | [] => some []
  | n :: ns =>
    if isHighSurrogate n then
      match ns with
      | low :: ns =>
        if isLowSurrogate low then
          (pairSurrogates? ns).map
            (Char.ofNat (0x10000 + 0x400 * (n - 0xD800) + (low - 0xDC00)) :: ·)
        else none
      | [] => none
    else if isLowSurrogate n then none
    else (pairSurrogates? ns).map (Char.ofNat n :: ·)

/-- Cuts a text after the quote that ends a string. -/
def splitQuoted? (s : List Char) : Option (Option String × List Char) :=
  (splitString? s).map fun (units, rest) => ((pairSurrogates? units).map String.ofList, rest)

/-! ## Values -/

mutual

/-- The value at the start of a text, and the text behind it if there was nothing wrong with the
notation. The fuel bounds the number of values and members; a text never holds more of them than it
has characters. -/
def value (fuel : Nat) (s : List Char) : Scan × Option (List Char) :=
  match fuel with
  | 0 => (broken, none)
  | fuel + 1 =>
    match skipSpacing s with
    | 'n' :: 'u' :: 'l' :: 'l' :: s => (null, some s)
    | 't' :: 'r' :: 'u' :: 'e' :: s => (bool true, some s)
    | 'f' :: 'a' :: 'l' :: 's' :: 'e' :: s => (bool false, some s)
    | '"' :: s =>
      match splitQuoted? s with
      | some (content, s) => (string content, some s)
      | none => (broken, none)
    | '[' :: s =>
      match skipSpacing s with
      | ']' :: s => (array [] true, some s)
      | s =>
        let (xs, rest) := items fuel s
        (array xs rest.isSome, rest)
    | '\x7b' :: s =>
      match skipSpacing s with
      | '\x7d' :: s => (object [] true, some s)
      | '"' :: s =>
        let (ms, rest) := members fuel s
        (object ms rest.isSome, rest)
      | s => (badKey (value fuel s).1, none)
    | s =>
      match Numeral.split? s with
      | some (n, s) => (number n.number?, some s)
      | none => (broken, none)

/-- The items of an array up to its closing bracket. There must be one. -/
def items (fuel : Nat) (s : List Char) : List Scan × Option (List Char) :=
  match fuel with
  | 0 => ([], none)
  | fuel + 1 =>
    match value fuel s with
    | (x, none) => ([x], none)
    | (x, some s) =>
      match skipSpacing s with
      | ']' :: s => ([x], some s)
      | ',' :: s =>
        let (xs, rest) := items fuel s
        (x :: xs, rest)
      | _ => ([x], none)

/-- The members of an object up to its closing brace, from behind the quote that starts the first
key. -/
def members (fuel : Nat) (s : List Char) : List (Option String × Scan) × Option (List Char) :=
  match fuel with
  | 0 => ([], none)
  | fuel + 1 =>
    match splitQuoted? s with
    | none => ([], none)
    | some (key, s) =>
      match skipSpacing s with
      | ':' :: s =>
        match value fuel s with
        | (x, none) => ([(key, x)], none)
        | (x, some s) =>
          match skipSpacing s with
          | '\x7d' :: s => ([(key, x)], some s)
          | ',' :: s =>
            match skipSpacing s with
            | '"' :: s =>
              let (ms, rest) := members fuel s
              ((key, x) :: ms, rest)
            | _ => ([(key, x)], none)
          | _ => ([(key, x)], none)
      | _ => ([(key, broken)], none)

end

/-- The value at the start of a text, and the text behind it. -/
def ofText (s : List Char) : Scan × Option (List Char) := value (2 * s.length + 2) s

/-! ## Validity -/

/-- The notation is right, whatever the numbers and strings hold. -/
def isClosed : Scan → Bool
  | broken | badKey _ => false
  | array _ closed | object _ closed => closed
  | _ => true

mutual

/-- Everything in the value can be read, and its containers are nested at most `depth` deep. -/
def isReadable (depth : Nat) : Scan → Bool
  | broken | badKey _ => false
  | null | bool _ => true
  | number n => n.isSome
  | string s => s.isSome
  | array xs closed => 0 < depth && readableItems (depth - 1) xs && closed
  | object ms closed => 0 < depth && readableMembers (depth - 1) ms && closed

def readableItems (depth : Nat) : List Scan → Bool
  | [] => true
  | x :: xs => isReadable depth x && readableItems depth xs

def readableMembers (depth : Nat) : List (Option String × Scan) → Bool
  | [] => true
  | (key, x) :: ms => key.isSome && isReadable depth x && readableMembers depth ms

end

end Scan

end FilterQuery.Json
