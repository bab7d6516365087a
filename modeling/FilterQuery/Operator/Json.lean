import FilterQuery.Json.Decoding
import FilterQuery.Operator.Spelling

/-!
# Operators and connectives as JSON
-/

namespace FilterQuery

open Json (Decoder)

def Operator.json (op : Operator) : Json := .string op.token

/-- Reads an operator in any of its spellings. -/
def Operator.decoder : Decoder Operator
  | depth, scan => do
    let s ← Json.Decoder.string depth scan
    match Operator.ofText s.toList with
    | .ok op => return op
    | .error e => throw (.mismatch (.refused e))

def Connective.json (c : Connective) : Json := .string c.word

/-- Reads a connective, in upper or lower case. -/
def Connective.decoder : Decoder Connective :=
  .word [("AND", .and), ("and", .and), ("OR", .or), ("or", .or)]

end FilterQuery
