import FilterQuery.Json.Decoding

/-!
# Values as JSON

Values are plain JSON, so their type is told by their notation alone. A number without point and
exponent is a whole number if it fits, and a list is the first of a list of whole numbers, numbers,
truth values and strings that it can be; an empty one is a list of whole numbers.
-/

namespace FilterQuery

open Json (Decoder Scan)

/-! ## Writing -/

/-- A whole number as JSON. -/
def Json.int (n : Int) : Json := .number (.whole n)

def ValueList.json : ValueList → Json
  | ints xs => .array (xs.map fun n => .int n.toInt)
  | floats xs => .array (xs.map fun x => .number (.float x))
  | bools xs => .array (xs.map .bool)
  | strings xs => .array (xs.map .string)

def Value.json : Value → Json
  | null => .null
  | bool b => .bool b
  | int n => .int n.toInt
  | float x => .number (.float x)
  | string s => .string s
  | list xs => xs.json

/-! ## Reading -/

namespace Json.Scan

/-- A whole number that fits 64 bits with a sign. -/
def int64? : Scan → Option Int64
  | number (some (.whole n)) => Text.signedOfInt? n
  | _ => none

/-- A number, a whole one as the nearest floating-point number. -/
def float? : Scan → Option Float64
  | number (some (.whole n)) => some (.ofRatio (n < 0) n.natAbs 1)
  | number (some (.float x)) => some x
  | _ => none

def bool? : Scan → Option Bool
  | bool b => some b
  | _ => none

def string? : Scan → Option String
  | string s => s
  | _ => none

/-- The first kind of list that all items fit. -/
def valueList? (items : List Scan) : Option ValueList :=
  (items.mapM int64?).map .ints <|> (items.mapM float?).map .floats <|>
    (items.mapM bool?).map .bools <|> (items.mapM string?).map .strings

/-- The first type of value that the scan fits. -/
def value? : Scan → Option Value
  | null => some .null
  | bool b => some (.bool b)
  | number n => (int64? (number n)).map .int <|> (float? (number n)).map .float
  | string s => s.map .string
  | array items _ => (valueList? items).map .list
  | _ => none

/-- A list on its own. -/
def listAlone? : Scan → Option ValueList
  | array items _ => valueList? items
  | _ => none

end Json.Scan

/-- Reads one of several alternatives. All of the value has to be readable before any alternative is
tried. -/
def Json.Decoder.alternatives {α : Type} (type : String) (read : Scan → Option α) : Decoder α
  | depth, scan => do
    require (scan.isReadable depth)
    match read scan with
    | some a => return a
    | none => throw (.mismatch (.noAlternative type))

def Value.decoder : Decoder Value := .alternatives "Value" Scan.value?

def ValueList.decoder : Decoder ValueList := .alternatives "List" Scan.listAlone?

end FilterQuery
