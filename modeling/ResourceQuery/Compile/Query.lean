import ResourceQuery.Compile.Page
import ResourceQuery.Compile.PushDown
import ResourceQuery.Sql.Render

/-!
# Compiling requests

## Main Definitions

- `QueryPlan`: the queries that answer a request.
- `Request.compile`: the plan of a request.
- `QueryPlan.statements`: the texts of the queries in the order in which they run.
-/

namespace ResourceQuery

open Sql (Table Select)

/-- The queries that answer a request. -/
structure QueryPlan where
  resourceType : String
  /-- Counts all matching resources, if that is wanted. -/
  count? : Option Select
  /-- Returns the page. -/
  data : Select

namespace Compile

/-- The query that counts the resources of a type that meet a filter. -/
def countQuery (schema : Schema) (resourceType : String) (filter? : Option Filter) :
    Compile Select := do
  let table ← newTable schema resourceType
  queryTable table .count (Filter.compileOption schema table filter?)

/-- The query that returns a page of the resources of a table, with everything to be followed from
them. -/
def pageQuery (schema : Schema) (settings : QuerySettings) (table : Table) (fetch : Fetch)
    (sort : List SortElement) (page : Pagination) : Compile Select := do
  let filter? ← Filter.compileOption schema table fetch.layer.filter?
  let terms ← orderTerms schema table sort
  let limit ← page.compile settings
  if ← lookup (fetch.reachesToMany schema table.resourceType) then
    pushDown schema ⟨← draft, table, filter?, terms, limit⟩ fetch sort
  else
    let columns ← selectors schema table (.table table) fetch.layer.selection?
    let below ← fetch.compile schema table
    tree ((← draft).assemble (.table table) columns filter? (orderOf (terms ++ below))
      (some limit))

/-- The query that returns the page of a request. -/
def dataQuery (schema : Schema) (settings : QuerySettings) (request : Request) :
    Compile Select := do
  let table ← newTable schema request.resourceType
  pageQuery schema settings table (Fetch.ofLayer request.layer)
    (request.layer.sort?.getD defaultSort) (request.layer.pagination?.getD firstPage)

/-- The result of compiling one statement. -/
def run {α : Type} (action : Compile α) : Except CompileError α :=
  match action Progress.start with
  | .ok (a, _) => .ok a
  | .error e => .error e

end Compile

/-- The plan of a request.  The resources are counted only if the settings say so. -/
def Request.compile (schema : Schema) (settings : QuerySettings) (request : Request) :
    Except CompileError QueryPlan := do
  let count? ←
    if settings.includeTotalCount then
      some <$> Compile.run (Compile.countQuery schema request.resourceType request.layer.filter?)
    else pure none
  let data ← Compile.run (Compile.dataQuery schema settings request)
  return ⟨request.resourceType, count?, data⟩

/-- The texts of the queries in the order in which they run: the count before the page. -/
def QueryPlan.statements (plan : QueryPlan) : List Sql.Rendered :=
  (plan.count?.map Select.render).toList ++ [plan.data.render]

end ResourceQuery
