import ResourceQuery.Compile.Follow

/-!
# The order of rows

## Main Definitions

- `SortElement.compile`: the criterion that a sort element stands for.
- `Compile.orderTerms`: the criteria of a list of sort elements.
-/

namespace ResourceQuery

open Sql (Table OrderTerm)

/-- The criterion that a sort element stands for.  Columns of joined tables are noted in the
draft. -/
def SortElement.compile (schema : Schema) (table : Table) (element : SortElement) :
    Compile OrderTerm := do
  match element.target with
  | .field path =>
    let (column, _) ← Compile.fieldColumn schema table path
    if column.alias? ≠ some table.tableAlias then
      Compile.changeDraft (·.addSortColumn column)
    return ⟨.column column, element.descending⟩
  | .count relationship =>
    let select ← Compile.relatedCount schema table relationship .sort
    return ⟨.count select, element.descending⟩

namespace Compile

/-- The criteria of a list of sort elements. -/
def orderTerms (schema : Schema) (table : Table) : List SortElement → Compile (List OrderTerm)
  | [] => return []
  | element :: rest => do
    let term ← element.compile schema table
    return term :: (← orderTerms schema table rest)

/-- Criteria as an order.  Without criteria there is none. -/
def orderOf (terms : List OrderTerm) : Option (List OrderTerm) :=
  if terms.isEmpty then none else some terms

/-- The order of requests that ask for none: by identifier. -/
def defaultSort : List SortElement :=
  [⟨.field [Schema.idField], false⟩]

end Compile

end ResourceQuery
