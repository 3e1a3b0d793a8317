import ResourceQuery.Compile.Catalog
import ResourceQuery.Compile.Names
import ResourceQuery.Sql.Repair

/-!
# Queries under construction

While a query is compiled, joins are added as paths are followed, and the select list grows source
by source.

## Main Definitions

- `Draft`: the joins, selectors and moved tables of a query so far.
- `Draft.assemble`: the finished query.
- `Compile`: a computation that adds to a draft, takes fresh names and may fail.
-/

namespace ResourceQuery

open Sql (TableAlias Table Source Select Selector Column Condition OrderTerm Limit JoinOn Entry)

/-- A joined source. -/
structure Join where
  source : Source
  on : JoinOn

/-- A query under construction. -/
structure Draft where
  /-- The joins in the order in which they were made. -/
  joins : List Join
  /-- The table joined for a relationship, by the alias of the table it leads away from. -/
  joined : List ((TableAlias × String) × Table)
  /-- What is selected from each source. -/
  selectors : List (TableAlias × List Selector)
  /-- Columns of joined tables that the order refers to. -/
  sortColumns : List Column
  /-- Tables that were moved into derived tables. -/
  remap : Sql.Remap

namespace Draft

/-- The draft of a query without joins. -/
def empty : Draft := ⟨[], [], [], [], Sql.Remap.empty⟩

instance : Inhabited Draft := ⟨empty⟩

/-- The table joined earlier for a relationship. -/
def joinedFor? (d : Draft) (source : TableAlias) (relationship : String) : Option Table :=
  d.joined.lookup (source, relationship)

/-- Add a join that is found again by the relationship it follows. -/
def addRelationshipJoin (d : Draft) (source : TableAlias) (relationship : String) (table : Table)
    (join : Join) : Draft :=
  { d with joins := d.joins ++ [join], joined := ((source, relationship), table) :: d.joined }

/-- Add a join that is never used again. -/
def addJoin (d : Draft) (join : Join) : Draft :=
  { d with joins := d.joins ++ [join] }

/-- The aliases of the joined sources. -/
def joinAliases (d : Draft) : List TableAlias :=
  d.joins.filterMap (fun join => join.source.alias?)

/-- Append selectors to those of a source. -/
def appendSelectors (a : TableAlias) (more : List Selector) :
    List (TableAlias × List Selector) → List (TableAlias × List Selector)
  | [] => [(a, more)]
  | (b, selectors) :: rest =>
    if b = a then (b, selectors ++ more) :: rest
    else (b, selectors) :: appendSelectors a more rest

/-- Select more from a source. -/
def addSelectors (d : Draft) (a : TableAlias) (more : List Selector) : Draft :=
  { d with selectors := appendSelectors a more d.selectors }

/-- Note that the order refers to a column of a joined table. -/
def addSortColumn (d : Draft) (column : Column) : Draft :=
  if column ∈ d.sortColumns then d else { d with sortColumns := d.sortColumns ++ [column] }

/-- Note that a table was moved into a derived table. -/
def move (d : Draft) (former enclosing : TableAlias) : Draft :=
  { d with remap := d.remap.insert former enclosing }

/-- What is selected from a source. -/
def selectorsOf (d : Draft) (source : Source) : List Selector :=
  match source.alias? with
  | some a => (d.selectors.lookup a).getD []
  | none => []

/-- The sources of the finished query. -/
def entries (d : Draft) (start : Source) (startSelectors : List Selector) : List Entry :=
  ⟨start, none, startSelectors⟩
    :: d.joins.map (fun join => ⟨join.source, some join.on, d.selectorsOf join.source⟩)

/-- The finished query, with references to moved tables redirected. -/
def assemble (d : Draft) (start : Source) (startSelectors : List Selector)
    (filter? : Option Condition) (order? : Option (List OrderTerm)) (limit? : Option Limit) :
    Except Sql.TreeError Select :=
  Select.repair ⟨d.entries start startSelectors, filter?, order?, limit?, none⟩ d.remap

end Draft

/-- What changes while a query is compiled. -/
structure Progress where
  names : Names
  draft : Draft

/-- The beginning of a statement. -/
def Progress.start : Progress := ⟨Names.fresh, Draft.empty⟩

instance : Inhabited Progress := ⟨Progress.start⟩

/-- A computation that adds to a draft, takes fresh names and may fail. -/
abbrev Compile (α : Type) := StateT Progress (Except CompileError) α

namespace Compile

variable {α : Type}

/-- A result that does not depend on what was compiled before. -/
def lift (result : Except CompileError α) : Compile α := fun progress =>
  match result with
  | .ok a => .ok (a, progress)
  | .error e => .error e

/-- The outcome of a lookup. -/
def lookup (result : Except LookupError α) : Compile α :=
  lift (CompileError.ofLookup result)

/-- The outcome of building a tree. -/
def tree (result : Except Sql.TreeError α) : Compile α :=
  lift (CompileError.ofTree result)

/-- Give up. -/
def fail (e : CompileError) : Compile α :=
  lift (.error e)

/-- The draft so far. -/
def draft : Compile Draft := fun progress =>
  .ok (progress.draft, progress)

/-- Change the draft. -/
def changeDraft (change : Draft → Draft) : Compile Unit := fun progress =>
  .ok ((), { progress with draft := change progress.draft })

/-- A fresh alias. -/
def newAlias : Compile TableAlias := fun progress =>
  let (a, names) := progress.names.nextTable
  .ok (a, { progress with names })

/-- A fresh parameter. -/
def newParameter (value : Sql.Value) : Compile Sql.Parameter := fun progress =>
  let (p, names) := progress.names.nextParameter value
  .ok (p, { progress with names })

/-- The table of a resource type, under a fresh alias. -/
def newTable (schema : Schema) (resourceType : String) : Compile Table := do
  let a ← newAlias
  lookup (schema.table resourceType a)

/-- Compile a query inside the current one.  It has a draft of its own, which is returned, but
shares the names. -/
def inner (action : Compile α) : Compile (α × Draft) := fun progress =>
  match action { progress with draft := Draft.empty } with
  | .ok (a, after) => .ok ((a, after.draft), { progress with names := after.names })
  | .error e => .error e

end Compile

end ResourceQuery
