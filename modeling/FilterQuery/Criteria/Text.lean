import FilterQuery.Criteria
import FilterQuery.Filter.Line
import FilterQuery.Page.Parts
import FilterQuery.SortKey.Expression

/-!
# Criteria written as text
-/

namespace FilterQuery

/-- The criteria with the given filter lines, sort expression and parts of a page request. They are
read in this order, and the first complaint is the answer. -/
def Criteria.ofText (lines : List String) (sort : String) (parts : List String) :
    Except Error Criteria := do
  let filters ← Filter.ofLines lines
  let sorts ← SortKey.ofExpression sort
  let page ← Page.ofParts parts
  return { filters, sorts, page }

end FilterQuery
