import FilterQuery.Criteria
import FilterQuery.Filter.Json
import FilterQuery.Page.Json
import FilterQuery.SortKey.Json

/-!
# Criteria as JSON

Criteria are an object with filters, sort keys and a page. Each of them may be left out when
reading.
-/

namespace FilterQuery.Criteria

open Json (Decoder Problem Scan)
open Json.Decoder

def json (c : Criteria) : Json :=
  .object
    [("filters", .array (c.filters.map Filter.json)), ("sorts", .array (c.sorts.map SortKey.json)),
      ("pagination", c.page.json)]

/-- The members of criteria that have been read. -/
structure Draft where
  filters : Option (List Filter) := none
  sorts : Option (List SortKey) := none
  page : Option Page := none
deriving DecidableEq

def Draft.set (depth : Nat) (d : Draft) (name : String) (x : Scan) :
    Option (Except Problem Draft) :=
  match name with
  | "filters" =>
    some ((fun v => { d with filters := some v }) <$>
      once name d.filters (list Filter.decoder depth x))
  | "sorts" =>
    some ((fun v => { d with sorts := some v }) <$>
      once name d.sorts (list SortKey.decoder depth x))
  | "pagination" =>
    some ((fun v => { d with page := some v }) <$> once name d.page (Page.decoder depth x))
  | _ => none

def record : Record Draft where
  type := "Criteria"
  names := ["filters", "sorts", "pagination"]
  set := Draft.set

def decoder : Decoder Criteria
  | depth, scan => do
    let (d, _) ← record.members {} depth scan
    return { filters := d.filters.getD [], sorts := d.sorts.getD [], page := d.page.getD {} }

end FilterQuery.Criteria
