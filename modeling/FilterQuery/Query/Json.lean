import FilterQuery.Query.Basic
import FilterQuery.Value.Json

/-!
# Queries as JSON
-/

namespace FilterQuery.Query

def json (q : Query) : Json :=
  .object [("sql", .string q.sql), ("args", .array (q.arguments.map Value.json))]

end FilterQuery.Query
