import FilterQuery.Float64.Notation

/-!
# Values

A filter compares its field with a value, and a query binds values to its placeholders. Lists are
homogeneous: all their elements are of one kind.
-/

namespace FilterQuery

open Text

/-- The kinds of scalars that a list can hold. -/
inductive Kind where
  | int
  | float
  | bool
  | string
deriving DecidableEq, Repr

def Kind.name : Kind → String
  | int => "integer"
  | float => "float"
  | bool => "boolean"
  | string => "string"

inductive ValueList where
  | ints (xs : List Int64)
  | floats (xs : List Float64)
  | bools (xs : List Bool)
  | strings (xs : List String)
deriving DecidableEq

/-- A value of a filter or of a placeholder. -/
inductive Value where
  | null
  | bool (b : Bool)
  | int (n : Int64)
  | float (x : Float64)
  | string (s : String)
  | list (xs : ValueList)
deriving DecidableEq

instance : Inhabited Value := ⟨.null⟩

/-- The elements of a list as values, in order. -/
def ValueList.toValues : ValueList → List Value
  | ints xs => xs.map .int
  | floats xs => xs.map .float
  | bools xs => xs.map .bool
  | strings xs => xs.map .string

def ValueList.kind : ValueList → Kind
  | ints _ => .int
  | floats _ => .float
  | bools _ => .bool
  | strings _ => .string

namespace Value

/-- A value that may be missing. -/
def ofOption (v : Option Value) : Value := v.getD .null

/-- The alternatives that a value offers to a list operator. A string offers the pieces between its
commas, as they stand; null offers none. -/
def elements : Value → List Value
  | null => []
  | list xs => xs.toValues
  | string s => (s.toList.splitOn ',').map fun piece => .string (String.ofList piece)
  | v => [v]

/-! ## Text of a value -/

/-- A scalar without quotes. Lists, which never occur inside a list, have no text here. -/
def bare : Value → List Char
  | null => "NULL".toList
  | bool b => if b then "true".toList else "false".toList
  | int n => signedDecimal n.toInt
  | float x => x.plain
  | string s => s.toList
  | list _ => []

/-- A scalar, with a string in single quotes. -/
def quoted : Value → List Char
  | string s => '\'' :: s.toList ++ ['\'']
  | v => v.bare

def commaSeparated (texts : List (List Char)) : List Char := [',', ' '].intercalate texts

/-- The text of a value in listings: strings are quoted, lists stand in brackets. -/
def text : Value → List Char
  | list xs => '[' :: commaSeparated (xs.toValues.map quoted) ++ [']']
  | v => v.quoted

/-- The text of a value between the brackets of a filter line: nothing is quoted. -/
def bracketText : Value → List Char
  | list xs => commaSeparated (xs.toValues.map bare)
  | v => v.bare

end Value

end FilterQuery
