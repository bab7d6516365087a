import FilterQuery.Error
import FilterQuery.SortKey
import FilterQuery.Text.Blank

/-!
# Sort expressions

Sort keys are written as fields between colons. A field with `+` behind it is sorted in ascending
order, one with `-` in descending order, and any other in an order that is left open.

    name+:created_at-:id
-/

namespace FilterQuery.SortKey

open Text

/-- A text without the given last character, if that is its last one. -/
def dropLast? (c : Char) (s : List Char) : Option (List Char) :=
  if s.getLast? = some c then some s.dropLast else none

/-- The sort key written in a trimmed piece of an expression. The field must not be empty. -/
def ofPiece? (piece : List Char) : Option SortKey :=
  let (field, direction) := match dropLast? '+' piece, dropLast? '-' piece with
    | some field, _ => (field, some Direction.asc)
    | none, some field => (field, some Direction.desc)
    | none, none => (piece, none)
  if field.isEmpty then none else some { field := String.ofList field, direction }

/-- The sort keys written in an expression. A blank expression has none. -/
def ofExpression (expression : String) : Except Error (List SortKey) :=
  let trimmed := trim expression.toList
  if trimmed.isEmpty then .ok []
  else match (trimmed.splitOn ':').mapM fun piece => ofPiece? (trim piece) with
    | some keys => .ok keys
    | none => .error (.emptySort (String.ofList trimmed))

end FilterQuery.SortKey
