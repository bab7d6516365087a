/-!
# Sort keys

The order of the result is a list of sort keys: fields, each with or without a direction.
-/

namespace FilterQuery

inductive Direction where
  | asc
  | desc
deriving DecidableEq, Repr

def Direction.keyword : Direction → String
  | asc => "ASC"
  | desc => "DESC"

/-- A field that the result is ordered by. -/
structure SortKey where
  field : String
  direction : Option Direction := none
deriving DecidableEq, Repr

namespace SortKey

/-- The direction of the order. It is ascending unless the key says otherwise. -/
def effectiveDirection (k : SortKey) : Direction := k.direction.getD .asc

/-- The key as an item of the `ORDER BY` clause. A direction that was not said stays unsaid. -/
def item (k : SortKey) : List Char :=
  k.field.toList ++
    match k.direction with
    | some direction => ' ' :: direction.keyword.toList
    | none => []

/-- The `ORDER BY` clause, empty without sort keys. -/
def clause (keys : List SortKey) : List Char :=
  if keys.isEmpty then []
  else "ORDER BY ".toList ++ [',', ' '].intercalate (keys.map item)

end SortKey

end FilterQuery
