import FilterQuery.Criteria
import FilterQuery.Query.Where
import FilterQuery.Text.Blank

/-!
# Queries

The SQL text of criteria and the arguments for its placeholders. The text is the `WHERE`,
`ORDER BY` and `LIMIT` clauses, as far as there are such.
-/

namespace FilterQuery

open Text

/-- SQL text and the arguments for its placeholders: the first one is bound to `$1`. -/
structure Query where
  sql : String
  arguments : List Value
deriving DecidableEq

namespace Query

/-- The clauses that are more than blank, without blanks around them, joined by spaces. -/
def joinClauses (clauses : List (List Char)) : List Char :=
  [' '].intercalate ((clauses.map trim).filter (!·.isEmpty))

/-- The query that fetches what the criteria ask for. `defaultSize` is the page size when they ask
for none. -/
def ofCriteria (defaultSize : UInt64) (criteria : Criteria) : Except Error Query := do
  let predicates ← Predicate.ofFilters criteria.filters
  let clauses :=
    [Predicate.clause predicates, SortKey.clause criteria.sorts, criteria.page.clause defaultSize]
  return { sql := String.ofList (joinClauses clauses)
           arguments := predicates.flatMap Predicate.arguments }

end Query

end FilterQuery
