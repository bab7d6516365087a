import FilterQuery.Filter
import FilterQuery.Operator.Json
import FilterQuery.Value.Json

/-!
# Filters as JSON

A filter is an object. Groups that are neither opened nor closed and a connective that is not said
are left out when writing; when reading, the value may be left out as well.
-/

namespace FilterQuery.Filter

open Json (Decoder Problem Scan)
open Json.Decoder

def json (f : Filter) : Json :=
  .object <|
    [("field", .string f.field), ("operator", f.operator.json), ("value", f.value.json)] ++
    (if f.opens = 0 then [] else [("group_open", .int f.opens.toNat)]) ++
    (if f.closes = 0 then [] else [("group_close", .int f.closes.toNat)]) ++
    match f.key with
    | some key => [("chaining_key", key.json)]
    | none => []

/-- The members of a filter that have been read. -/
structure Draft where
  field : Option String := none
  operator : Option Operator := none
  value : Option Value := none
  opens : Option Nat := none
  closes : Option Nat := none
  key : Option (Option Connective) := none
deriving DecidableEq

def Draft.set (depth : Nat) (d : Draft) (name : String) (x : Scan) :
    Option (Except Problem Draft) :=
  match name with
  | "field" =>
    some ((fun v => { d with field := some v }) <$> once name d.field (string depth x))
  | "operator" =>
    some ((fun v => { d with operator := some v }) <$>
      once name d.operator (Operator.decoder depth x))
  | "value" =>
    some ((fun v => { d with value := some v }) <$> once name d.value (Value.decoder depth x))
  | "group_open" =>
    some ((fun v => { d with opens := some v }) <$> once name d.opens (natural "usize" depth x))
  | "group_close" =>
    some ((fun v => { d with closes := some v }) <$> once name d.closes (natural "usize" depth x))
  | "chaining_key" =>
    some ((fun v => { d with key := some v }) <$>
      once name d.key (optional Connective.decoder depth x))
  | _ => none

def record : Record Draft where
  type := "Filter"
  names := ["field", "operator", "value", "group_open", "group_close", "chaining_key"]
  set := Draft.set

/-- Reads a filter. The scanned numbers that are whole fit 64 bits. -/
def decoder : Decoder Filter
  | depth, scan => do
    let (d, layout) ← record.members {} depth scan
    let field ← record.required layout "field" d.field
    let operator ← record.required layout "operator" d.operator
    return { field, operator, value := d.value.getD .null, opens := UInt64.ofNat (d.opens.getD 0)
             closes := UInt64.ofNat (d.closes.getD 0), key := d.key.getD none }

end FilterQuery.Filter
