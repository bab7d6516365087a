/-!
# Comparison operators and connectives

What a filter may ask of a field, and how two filters are joined. Every operator has one token in
the filter language, one short code for query strings and one SQL keyword.
-/

namespace FilterQuery

/-- Comparison of a field with the value of a filter. -/
inductive Operator where
  | equal
  | notEqual
  | greater
  | greaterOrEqual
  | less
  | lessOrEqual
  /-- Pattern match without regard to letter case. -/
  | contains
  | notContains
  | is
  | isNot
  | isIn
  | notIn
deriving DecidableEq, Repr

namespace Operator

/-- Every operator, in the order of listings. -/
def all : List Operator :=
  [equal, notEqual, greater, greaterOrEqual, less, lessOrEqual, contains, notContains, is, isNot,
    isIn, notIn]

theorem mem_all (op : Operator) : op ∈ all := by cases op <;> decide

/-- The token of the filter language. -/
def token : Operator → String
  | equal => "="
  | notEqual => "!="
  | greater => ">"
  | greaterOrEqual => ">="
  | less => "<"
  | lessOrEqual => "<="
  | contains => "CONTAINS"
  | notContains => "NOT_CONTAINS"
  | is => "IS"
  | isNot => "IS_NOT"
  | isIn => "IN"
  | notIn => "NOT_IN"

/-- The short code used in query strings. -/
def code : Operator → String
  | equal => "eq"
  | notEqual => "ne"
  | greater => "gt"
  | greaterOrEqual => "gte"
  | less => "lt"
  | lessOrEqual => "lte"
  | contains => "contains"
  | notContains => "ncontains"
  | is => "is"
  | isNot => "isn"
  | isIn => "in"
  | notIn => "nin"

/-- The SQL keyword. -/
def keyword : Operator → String
  | equal => "="
  | notEqual => "<>"
  | greater => ">"
  | greaterOrEqual => ">="
  | less => "<"
  | lessOrEqual => "<="
  | contains => "ILIKE"
  | notContains => "NOT ILIKE"
  | is => "IS"
  | isNot => "IS NOT"
  | isIn => "IN"
  | notIn => "NOT IN"

/-- The operators whose value is a list of alternatives, each bound to a placeholder of its own. -/
def takesList : Operator → Bool
  | isIn | notIn => true
  | _ => false

end Operator

/-- How a filter is joined to the next one. -/
inductive Connective where
  | and
  | or
deriving DecidableEq, Repr

namespace Connective

/-- The connective in the filter language and in SQL. -/
def word : Connective → String
  | and => "AND"
  | or => "OR"

end Connective

end FilterQuery
