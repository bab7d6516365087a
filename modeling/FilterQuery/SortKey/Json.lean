import FilterQuery.Json.Decoding
import FilterQuery.SortKey

/-!
# Sort keys as JSON

A sort key is an object with a field and, if it is said, a direction.
-/

namespace FilterQuery

open Json (Decoder Problem Scan)
open Json.Decoder

def Direction.json (d : Direction) : Json := .string d.keyword

/-- Reads a direction, in upper or lower case. -/
def Direction.decoder : Decoder Direction :=
  .word [("ASC", .asc), ("asc", .asc), ("DESC", .desc), ("desc", .desc)]

namespace SortKey

def json (k : SortKey) : Json :=
  .object <|
    ("field", .string k.field) ::
    match k.direction with
    | some direction => [("direction", direction.json)]
    | none => []

/-- The members of a sort key that have been read. -/
structure Draft where
  field : Option String := none
  direction : Option (Option Direction) := none
deriving DecidableEq

def Draft.set (depth : Nat) (d : Draft) (name : String) (x : Scan) :
    Option (Except Problem Draft) :=
  match name with
  | "field" =>
    some ((fun v => { d with field := some v }) <$> once name d.field (string depth x))
  | "direction" =>
    some ((fun v => { d with direction := some v }) <$>
      once name d.direction (optional Direction.decoder depth x))
  | _ => none

def record : Record Draft where
  type := "Sort"
  names := ["field", "direction"]
  set := Draft.set

def decoder : Decoder SortKey
  | depth, scan => do
    let (d, layout) ← record.members {} depth scan
    let field ← record.required layout "field" d.field
    return { field, direction := d.direction.getD none }

end SortKey

end FilterQuery
