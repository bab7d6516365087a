import FilterQuery.Operator.Basic
import FilterQuery.Value

/-!
# Filters

A filter is one predicate of a query. A sequence of filters is a logical formula written flat: each
filter carries the parentheses that open before it and close after it, and the connective that joins
it to the next one.

Parentheses are counted in machine words. A filter may carry as many of them as a word can count,
and nothing asks whether the counts of a sequence of filters add up.
-/

namespace FilterQuery

/-- One predicate of a query. -/
structure Filter where
  field : String
  operator : Operator
  value : Value := .null
  /-- How many groups open before the predicate. -/
  opens : UInt64 := 0
  /-- How many groups close after the predicate. -/
  closes : UInt64 := 0
  key : Option Connective := none
deriving DecidableEq

namespace Filter

/-- The connective to the next filter. It is `AND` unless the filter says otherwise. -/
def connective (f : Filter) : Connective := f.key.getD .and

def opensGroup (f : Filter) : Bool := 0 < f.opens

def closesGroup (f : Filter) : Bool := 0 < f.closes

/-- The filter as a line of the filter language. -/
def line (f : Filter) : List Char :=
  List.replicate f.opens.toNat '(' ++ '@' :: f.field.toList ++ ' ' :: f.operator.token.toList ++
    " [".toList ++ f.value.bracketText ++ ']' :: List.replicate f.closes.toNat ')' ++
    match f.key with
    | some key => ' ' :: key.word.toList
    | none => []

end Filter

end FilterQuery
