import ResourceQuery.Compile.Draft
import ResourceQuery.Request.Basic
import ResourceQuery.Sql.Condition

/-!
# Following relationships

A relationship is followed either by a join, which makes the related rows part of the query, or by
a query inside it that ranges over the related rows.

## Main Definitions

- `Compile.joinRelationship`: the table that a relationship leads to, joined once.
- `Compile.followToOne`, `Compile.followToMany`: the tables along a path.
- `Compile.queryTable`: the query over a table that a filter restricts.
- `Compile.correlated`: the query over the rows related to the current one.
-/

namespace ResourceQuery

open Sql (Table Source Select Selector Column Condition JoinOn)

/-- What a query returns for its rows when only a filter is given. -/
inductive QueryShape where
  /-- All columns, so that the query can be used as a derived table. -/
  | columns
  /-- The number of rows. -/
  | count
  /-- The constant one, to test for a row. -/
  | one
deriving DecidableEq

/-- The select list of a shape. -/
def QueryShape.selectors (shape : QueryShape) (table : Table) : List Selector :=
  match shape with
  | columns => table.columns.map (fun column => .column column none)
  | count => [.countRows]
  | one => [.one]

namespace Compile

/-- The columns that are equal for related rows: one of the table that the relationship leads away
from, and one of the table it leads to. -/
def keyColumns (key : ForeignKey) (source target : Table) :
    Except Sql.TreeError (Column × Column) :=
  match key.ownedBy with
  | .left => do
    let outer ← source.getColumn key.column
    let inner ← target.idColumn
    return (outer, inner)
  | .right => do
    let outer ← source.idColumn
    let inner ← target.getColumn key.column
    return (outer, inner)

/-- Rows without a counterpart are dropped only if there are none: if the foreign key is stored in
the rows themselves and never null. -/
def joinKind (key : ForeignKey) : Sql.JoinKind :=
  if key.ownedBy = .left ∧ key.nullable = false then .inner else .left

/-- The table that a relationship leads to.  It is joined unless it has been before. -/
def joinRelationship (schema : Schema) (source : Table) (name : String) : Compile Table := do
  match (← draft).joinedFor? source.tableAlias name with
  | some table => return table
  | none =>
    let relationship ← lookup (schema.relationship source.resourceType name)
    let key ← lookup (schema.foreignKeyOf source.resourceType name)
    let target ← newTable schema relationship.target
    let (outer, inner) ← tree (keyColumns key source target)
    let on ← tree (JoinOn.make (joinKind key) (.table target) outer inner)
    changeDraft (·.addRelationshipJoin source.tableAlias name target ⟨.table target, on⟩)
    return target

/-- The table at the end of a path of to-one relationships, joined step by step. -/
def followToOne (schema : Schema) (source : Table) : Path → Compile Table
  | [] => return source
  | name :: rest => do
    let relationship ← lookup (schema.relationship source.resourceType name)
    if relationship.isToOne then
      followToOne schema (← joinRelationship schema source name) rest
    else fail (.expectedToOne source.resourceType name)

/-- The table before the last step of a path, and the last step, which has to be a to-many
relationship. -/
def followToMany (schema : Schema) (source : Table) (path : Path) (place : PathUse) :
    Compile (Table × String) := do
  match path.getLast? with
  | none => fail (.emptyPath place)
  | some name =>
    let owner ← followToOne schema source path.dropLast
    let relationship ← lookup (schema.relationship owner.resourceType name)
    if relationship.isToMany then return (owner, name)
    else fail (.expectedToMany owner.resourceType name)

/-- The column of a field at the end of a path. -/
def fieldColumn (schema : Schema) (source : Table) (path : Path) :
    Compile (Column × FieldColumn) := do
  match path.getLast? with
  | none => fail (.emptyPath .field)
  | some name =>
    let owner ← followToOne schema source path.dropLast
    let info ← lift (schema.field owner.resourceType name)
    let column ← tree (owner.getColumn info.column)
    return (column, info)

/-- The query over a table that a condition restricts, with a draft of its own.  The condition is
compiled within that draft. -/
def queryTable (table : Table) (shape : QueryShape) (condition : Compile (Option Condition)) :
    Compile Select := do
  let (filter?, draft) ← inner condition
  tree (draft.assemble (.table table) (shape.selectors table) filter? none none)

/-- The query over the rows that a relationship leads to from the current row of a table. -/
def correlated (schema : Schema) (source : Table) (name : String) (shape : QueryShape)
    (condition : Table → Compile (Option Condition)) : Compile Select := do
  let relationship ← lookup (schema.relationship source.resourceType name)
  let key ← lookup (schema.foreignKeyOf source.resourceType name)
  let target ← newTable schema relationship.target
  let select ← queryTable target shape (condition target)
  let (outer, inner) ← tree (keyColumns key source target)
  return select.restrict (Condition.columnsEqual outer inner)

/-- The number of rows that a relationship leads to from the current row of a table. -/
def relatedCount (schema : Schema) (source : Table) (path : Path) (place : PathUse) :
    Compile Select := do
  let (owner, name) ← followToMany schema source path place
  correlated schema owner name .count (fun _ => return none)

end Compile

end ResourceQuery
