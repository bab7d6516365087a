import FilterQuery.Float64.Notation

/-!
# JSON documents

A document is a tree. Its numbers are whole or floating-point, and keep that difference in their
notation: a floating-point number is written with a point or an exponent, a whole one never is.
The members of an object stay in the order in which they are listed.

`Json.compact` writes a document without any spacing, `Json.pretty` with one item a line.
-/

namespace FilterQuery

open Text

/-- A number of a JSON document. -/
inductive Json.Number where
  | whole (n : Int)
  | float (x : Float64)
deriving DecidableEq

inductive Json where
  | null
  | bool (b : Bool)
  | number (n : Json.Number)
  | string (s : String)
  | array (items : List Json)
  | object (members : List (String × Json))

namespace Json

instance : Inhabited Json := ⟨.null⟩

/-! ## Strings -/

def hexDigit (n : Nat) : Char := Nat.digitChar (n % 16)

/-- A character inside a JSON string. Only the quote, the backslash and the control characters below
the space are escaped. -/
def escape (c : Char) : List Char :=
  if c = '"' then ['\\', '"']
  else if c = '\\' then ['\\', '\\']
  else if ' ' ≤ c then [c]
  else if c = '\x08' then ['\\', 'b']
  else if c = '\x0c' then ['\\', 'f']
  else if c = '\n' then ['\\', 'n']
  else if c = '\r' then ['\\', 'r']
  else if c = '\t' then ['\\', 't']
  else ['\\', 'u', '0', '0', hexDigit (c.toNat / 16), hexDigit c.toNat]

def quote (s : String) : List Char := '"' :: s.toList.flatMap escape ++ ['"']

/-! ## Notation -/

/-- The notation of a number. Floating-point numbers that are not finite have none and are written
as null. -/
def Number.text : Number → List Char
  | whole n => signedDecimal n
  | float x => x.json?.getD "null".toList

def truth (b : Bool) : List Char := if b then "true".toList else "false".toList

mutual

/-- A document without spacing. -/
def compact : Json → List Char
  | null => "null".toList
  | bool b => truth b
  | number n => n.text
  | string s => quote s
  | array [] => "[]".toList
  | array (x :: xs) => '[' :: compact x ++ compactItems xs ++ [']']
  | object [] => "\x7b\x7d".toList
  | object ((key, x) :: members) =>
    '\x7b' :: quote key ++ ':' :: compact x ++ compactMembers members ++ ['\x7d']

/-- The further items of an array. -/
def compactItems : List Json → List Char
  | [] => []
  | x :: xs => ',' :: compact x ++ compactItems xs

/-- The further members of an object. -/
def compactMembers : List (String × Json) → List Char
  | [] => []
  | (key, x) :: members => ',' :: quote key ++ ':' :: compact x ++ compactMembers members

end

/-- The start of a line at the given depth of nesting. -/
def newLine (depth : Nat) : List Char := '\n' :: List.replicate (2 * depth) ' '

mutual

/-- A document with one item a line, indented by two spaces for each level around it. -/
def pretty (depth : Nat) : Json → List Char
  | null => "null".toList
  | bool b => truth b
  | number n => n.text
  | string s => quote s
  | array [] => "[]".toList
  | array (x :: xs) =>
    '[' :: newLine (depth + 1) ++ pretty (depth + 1) x ++ prettyItems (depth + 1) xs ++
      newLine depth ++ [']']
  | object [] => "\x7b\x7d".toList
  | object ((key, x) :: members) =>
    '\x7b' :: newLine (depth + 1) ++ quote key ++ ':' :: ' ' :: pretty (depth + 1) x ++
      prettyMembers (depth + 1) members ++ newLine depth ++ ['\x7d']

def prettyItems (depth : Nat) : List Json → List Char
  | [] => []
  | x :: xs => ',' :: newLine depth ++ pretty depth x ++ prettyItems depth xs

def prettyMembers (depth : Nat) : List (String × Json) → List Char
  | [] => []
  | (key, x) :: members =>
    ',' :: newLine depth ++ quote key ++ ':' :: ' ' :: pretty depth x ++ prettyMembers depth members

end

end Json

end FilterQuery
