import ResourceQuery.Compile.Fields

/-!
# Pages of resources with many related ones

When related resources multiply rows, a limit on the rows would cut resources apart.  The page is
then selected by a query of its own, which becomes a derived table, and the related resources are
joined to that.

## Main Definitions

- `Compile.uniqueName`: a name for a column that is not taken yet.
- `Compile.pushDown`: the query around the page.

## Design Notes

Order criteria by column are kept and redirected to the derived table.  Criteria by number are
compiled again, because they depend on the rows that the page leaves.

The suffix of a free name is a natural number.  One of 32 bits with sign does the same as long as
fewer than `2 ^ 31` names are taken, since at most as many suffixes are tried.
-/

namespace ResourceQuery

open Sql (Table Source Select Selector Column Condition OrderTerm Limit TableAlias)

namespace Compile

/-! ### Free names -/

/-- The first of `name0`, `name1`, … from a number on that is not taken.  At most as many names are
tried as are taken. -/
def freeName (taken : List String) (name : String) : Nat → Nat → String
  | 0, suffix => name ++ natText suffix
  | tries + 1, suffix =>
    if name ++ natText suffix ∈ taken then freeName taken name tries (suffix + 1)
    else name ++ natText suffix

/-- A new name for a column whose own is taken, and the names taken afterwards. -/
def uniqueName (taken : List String) (name : String) : Option String × List String :=
  if name ∈ taken then
    let free := freeName taken name taken.length 0
    (some free, free :: taken)
  else (none, name :: taken)

/-- Selectors for the columns that the order needs, each with the source it is taken from, renamed
where their names are taken. -/
def sortSelectors (taken : List String) : List Column → List (TableAlias × Selector)
  | [] => []
  | column :: rest =>
    match column.alias? with
    | none => sortSelectors taken rest
    | some a =>
      let (rename?, taken) := uniqueName taken column.name
      (a, .column column rename?) :: sortSelectors taken rest

/-! ### The page and the query around it -/

/-- A page of resources, compiled up to its limit. -/
structure PrimaryPage where
  draft : Draft
  table : Table
  filter? : Option Condition
  /-- One criterion for each sort element. -/
  terms : List OrderTerm
  limit : Limit

/-- The query that selects a page, with all columns of the table and those that the order needs. -/
def PrimaryPage.select (page : PrimaryPage) : Except Sql.TreeError Select :=
  let taken := page.table.columns.map Column.name
  let draft := (sortSelectors taken page.draft.sortColumns).foldl
    (fun d s => d.addSelectors s.1 [s.2]) page.draft
  draft.assemble (.table page.table) (page.table.columns.map (fun c => .column c none))
    page.filter? (orderOf page.terms) (some page.limit)

/-- A draft in which a page has been moved into a derived table. -/
def PrimaryPage.outerDraft (page : PrimaryPage) (enclosing : TableAlias) : Draft :=
  (page.table.tableAlias :: page.draft.joinAliases).foldl (fun d a => d.move a enclosing)
    Draft.empty

/-- The criteria of the query around a page. -/
def outerTerms (schema : Schema) (table : Table) :
    List OrderTerm → List SortElement → Compile (List OrderTerm)
  | term :: terms, element :: sort => do
    let outer ← match term.target with
      | .column _ => pure term
      | .count _ => element.compile schema table
    return outer :: (← outerTerms schema table terms sort)
  | _, _ => return []

/-- The query around a page, to which everything to be followed is joined. -/
def pushDown (schema : Schema) (page : PrimaryPage) (fetch : Fetch) (sort : List SortElement) :
    Compile Select := do
  let select ← tree page.select
  let enclosing ← newAlias
  let derived ← tree (Source.ofSelect select enclosing)
  changeDraft (fun _ => page.outerDraft enclosing)
  let terms ← outerTerms schema page.table page.terms sort
  let columns ← selectors schema page.table derived fetch.layer.selection?
  let below ← fetch.compile schema page.table
  tree ((← draft).assemble derived columns none (orderOf (terms ++ below)) none)

end Compile

end ResourceQuery
