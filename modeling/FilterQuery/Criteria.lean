import FilterQuery.Filter
import FilterQuery.Page
import FilterQuery.SortKey

/-!
# Criteria

Everything that one query asks for: which rows, in which order, and which page of them.
-/

namespace FilterQuery

/-- Filters, sort keys and page of one query. -/
structure Criteria where
  filters : List Filter := []
  sorts : List SortKey := []
  page : Page := {}
deriving DecidableEq

end FilterQuery
