import FilterQuery.Criteria.Json
import FilterQuery.Criteria.Text
import FilterQuery.Query.Basic
import FilterQuery.Settings

/-!
# Sessions

A session builds up criteria step by step: by filters, sort keys and pages that the caller has put
together, by texts in the languages for these, and by documents. Each edit either yields the next
state or fails, and then the state stays as it was (`Session.after`).
-/

namespace FilterQuery

/-- The criteria so far, and the page size for queries that do not ask for one. -/
structure Session where
  criteria : Criteria := {}
  maxPageSize : UInt64 := 0
deriving DecidableEq

namespace Session

inductive Edit where
  | addFilters (filters : List Filter)
  | addLines (lines : List String)
  | addSorts (keys : List SortKey)
  | addExpression (expression : String)
  | setPage (page : Page)
  | setParts (parts : List String)
  | setMaxPageSize (n : UInt64)
  | loadSettings (text : String)
  | loadDocument (text : String)
  /-- Joins the last filter to the next one by a connective. -/
  | join (word : String)
  /-- Sets the number of groups that open before the last filter. -/
  | openGroups (n : UInt64)
  /-- Sets the number of groups that close after the last filter. -/
  | closeGroups (n : UInt64)
  | dropFilter
  /-- Writes the filters as lines and reads them again. -/
  | reloadLines
  /-- Writes the criteria as a JSON document and reads it again. -/
  | reloadDocument
  | reset

/-- Why an edit fails. -/
inductive Failure where
  | refused (error : Error)
  | badDocument (problem : Json.Problem)
  | noFilter
deriving DecidableEq

def withFilters (s : Session) (filters : List Filter) : Session :=
  { s with criteria := { s.criteria with filters } }

def withSorts (s : Session) (sorts : List SortKey) : Session :=
  { s with criteria := { s.criteria with sorts } }

def modifyLast (change : Filter → Filter) : List Filter → Except Failure (List Filter)
  | [] => .error .noFilter
  | [f] => .ok [change f]
  | f :: g :: fs => (f :: ·) <$> modifyLast change (g :: fs)

/-- The criteria in a JSON document. -/
def readDocument (text : String) : Except Failure Criteria :=
  (Json.decode Criteria.decoder text).mapError .badDocument

def apply (s : Session) : Edit → Except Failure Session
  | .addFilters filters => .ok (s.withFilters (s.criteria.filters ++ filters))
  | .addLines lines => do
    let filters ← (Filter.ofLines lines).mapError .refused
    return s.withFilters (s.criteria.filters ++ filters)
  | .addSorts keys => .ok (s.withSorts (s.criteria.sorts ++ keys))
  | .addExpression expression => do
    let keys ← (SortKey.ofExpression expression).mapError .refused
    return s.withSorts (s.criteria.sorts ++ keys)
  | .setPage page => .ok { s with criteria := { s.criteria with page } }
  | .setParts parts => do
    let page ← (Page.ofParts parts).mapError .refused
    return { s with criteria := { s.criteria with page } }
  | .setMaxPageSize n => .ok { s with maxPageSize := n }
  | .loadSettings text => do
    let settings ← (Settings.ofText text).mapError .refused
    return { s with maxPageSize := settings.maxPageSize }
  | .loadDocument text => do
    let criteria ← readDocument text
    return { s with criteria }
  | .join word => do
    let key ← (Connective.ofText word.toList).mapError .refused
    s.withFilters <$> modifyLast (fun f => { f with key := some key }) s.criteria.filters
  | .openGroups n =>
    s.withFilters <$> modifyLast (fun f => { f with opens := n }) s.criteria.filters
  | .closeGroups n =>
    s.withFilters <$> modifyLast (fun f => { f with closes := n }) s.criteria.filters
  | .dropFilter =>
    if s.criteria.filters.isEmpty then .error .noFilter
    else .ok (s.withFilters s.criteria.filters.dropLast)
  | .reloadLines => do
    let lines := s.criteria.filters.map fun f => String.ofList f.line
    s.withFilters <$> (Filter.ofLines lines).mapError .refused
  | .reloadDocument => do
    let criteria ← readDocument (String.ofList s.criteria.json.compact)
    return { s with criteria }
  | .reset => .ok { s with criteria := {} }

/-- The state behind an edit. An edit that fails leaves it as it was. -/
def after (s : Session) (edit : Edit) : Session :=
  match s.apply edit with
  | .ok s' => s'
  | .error _ => s

/-- The state behind a sequence of edits. -/
def run (s : Session) (edits : List Edit) : Session := edits.foldl after s

def query (s : Session) : Except Error Query := Query.ofCriteria s.maxPageSize s.criteria

end Session

end FilterQuery
