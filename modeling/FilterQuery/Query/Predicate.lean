import FilterQuery.Error
import FilterQuery.Filter

/-!
# Predicates

The predicates of the `WHERE` clause are the filters of the criteria, except that a list operator
without any alternative makes no predicate: such a filter is left out. Its parentheses must not be
lost, though. Those that it opens and does not close itself are handed on to the next predicate, and
those that it closes beyond that are handed back to the predicate before it.

Between two predicates with left-out filters in the gap there are several connectives to choose
from. The one at the outermost level of grouping is kept, and of those at one level the first.

All of this is counted in machine words that wrap around: the parentheses of a predicate and those
that wait in unsigned ones, the depth of the groups in a signed one. Filters that carry more
parentheses than these can add up are not refused.
-/

namespace FilterQuery

/-- What a predicate compares its field with. -/
inductive Operand where
  | single (value : Value)
  | alternatives (values : List Value)
deriving DecidableEq

/-- The values that an operand binds, one placeholder each. -/
def Operand.values : Operand → List Value
  | single value => [value]
  | alternatives values => values

/-- A predicate of the `WHERE` clause. -/
structure Predicate where
  field : String
  operator : Operator
  operand : Operand
  opens : UInt64
  closes : UInt64
  connective : Connective
  /-- How many groups are open where the connective stands. -/
  depth : Int64
deriving DecidableEq

/-- What a filter compares its field with, `none` if it is to be left out. Only a list operator
takes a list. -/
def Filter.operand? (f : Filter) : Except Error (Option Operand) :=
  if f.operator.takesList then
    let values := f.value.elements
    .ok (if values.isEmpty then none else some (.alternatives values))
  else match f.value with
    | .list xs => .error (.listForSingle f.operator f.field xs.kind)
    | value => .ok (some (.single value))

/-- The state of a walk over the filters. -/
structure Walk where
  /-- The predicates so far, the latest one first. -/
  predicates : List Predicate := []
  /-- How many opening parentheses wait for the next predicate. -/
  pending : UInt64 := 0
  /-- How many groups are open, counted in the filters seen. -/
  depth : Int64 := 0
deriving DecidableEq

namespace Walk

/-- How many groups are open behind one more filter. -/
def depthBehind (w : Walk) (f : Filter) : Int64 :=
  w.depth + (f.opens.toInt64 - f.closes.toInt64)

/-- A filter that becomes a predicate takes over the opening parentheses that wait. -/
def keep (w : Walk) (f : Filter) (operand : Operand) : Walk :=
  let depth := w.depthBehind f
  { predicates :=
      { field := f.field, operator := f.operator, operand, opens := w.pending + f.opens,
        closes := f.closes, connective := f.connective, depth } :: w.predicates
    pending := 0
    depth }

/-- The predicate in front of a left-out filter closes what is left to close, and gives up its
connective for one that stands further out. -/
def handBack (closes : UInt64) (connective : Connective) (depth : Int64) :
    List Predicate → List Predicate
  | [] => []
  | p :: ps =>
    let p := { p with closes := p.closes + closes }
    (if depth < p.depth then { p with connective, depth } else p) :: ps

/-- A filter that is left out cancels its closing parentheses against those that wait. -/
def skip (w : Walk) (f : Filter) : Walk :=
  let depth := w.depthBehind f
  let waiting := w.pending + f.opens
  let cancelled := min waiting f.closes
  { predicates := handBack (f.closes - cancelled) f.connective depth w.predicates
    pending := waiting - cancelled
    depth }

def step (w : Walk) (f : Filter) : Except Error Walk := do
  match ← f.operand? with
  | some operand => return w.keep f operand
  | none => return w.skip f

end Walk

/-- The predicates of the filters, in order. The first filter that compares with what its operator
does not take is the complaint. -/
def Predicate.ofFilters (filters : List Filter) : Except Error (List Predicate) := do
  let walk ← filters.foldlM Walk.step {}
  return walk.predicates.reverse

end FilterQuery
