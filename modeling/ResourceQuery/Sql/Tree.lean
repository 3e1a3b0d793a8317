import ResourceQuery.Sql.Column
import ResourceQuery.Sql.Value

/-!
# Statements as trees

The statements that are sent to the database, before they become text.

## Main Definitions

- `Sql.Select`: a query, with the sources it reads from and what it selects from each.
- `Sql.Source`: a table or a derived table.
- `Sql.Condition`: a truth-valued expression.
- `Sql.Statement`: a query, or a statement that changes one table.

## Design Notes

A select list is grouped by source: each entry of the list of sources carries the selectors that
it contributes.  An order without terms is kept apart from no order.
-/

namespace ResourceQuery.Sql

/-- A table that stores a resource type. -/
structure Table where
  resourceType : String
  name : String
  tableAlias : TableAlias
  /-- The columns that store values, the identifier first. -/
  scalars : List String
  /-- The columns that refer to other resources. -/
  foreignKeys : List String
deriving DecidableEq, Inhabited

/-- How rows without a counterpart are treated: dropped, or kept with nulls. -/
inductive JoinKind where
  | inner
  | left
deriving DecidableEq, Inhabited

/-- The condition of a join: a column outside the joined source equals a column inside it. -/
structure JoinOn where
  kind : JoinKind
  outer : Column
  inner : Column
deriving DecidableEq, Inhabited

/-- The order or equality that a comparison asks for. -/
inductive ComparisonOp where
  | equal
  | notEqual
  | less
  | lessOrEqual
  | greater
  | greaterOrEqual
deriving DecidableEq, Inhabited

/-- How terms are combined. -/
inductive LogicalOp where
  | and
  | or
deriving DecidableEq, Inhabited

/-- Where a text has to occur in a value. -/
inductive MatchKind where
  | contains
  | startsWith
  | endsWith
deriving DecidableEq, Inhabited

/-- How many rows are returned, and how many are skipped before them. -/
structure Limit where
  count : Parameter
  offset? : Option Parameter
deriving DecidableEq, Inhabited

mutual

/-- A query. -/
structure Select where
  entries : List Entry
  filter? : Option Condition
  order? : Option (List OrderTerm)
  limit? : Option Limit
  /-- The name of the query when it is used as a source. -/
  alias? : Option TableAlias

/-- A source of a query, and what is selected from it.  A source without join condition is the one
that the query starts from. -/
structure Entry where
  source : Source
  join? : Option JoinOn
  selectors : List Selector

/-- Something that rows can be taken from. -/
inductive Source where
  | table (table : Table)
  /-- A derived table: only what it selects is visible from outside. -/
  | derived (select : Select)

/-- An item of a select list. -/
inductive Selector where
  | column (column : Column) (rename? : Option String)
  /-- The constant one. -/
  | one
  /-- The number of rows. -/
  | countRows
  /-- The place of a row in an order. -/
  | rowNumber (order : List OrderTerm) (name : String)

/-- A truth-valued expression. -/
inductive Condition where
  | comparison (left : Operand) (op : ComparisonOp) (right : Operand)
  | logical (op : LogicalOp) (terms : List Condition)
  | not (term : Condition)
  /-- A text occurs in the value of a column. -/
  | like (column : Column) (text : String) (kind : MatchKind)
  | isIn (column : Column) (values : List Parameter)
  /-- A query has a row. -/
  | nonempty (select : Select)

/-- A side of a comparison. -/
inductive Operand where
  | column (column : Column)
  | parameter (parameter : Parameter)
  | null
  /-- The number that a query returns. -/
  | count (select : Select)

/-- A criterion of an order. -/
structure OrderTerm where
  target : OrderTarget
  descending : Bool

/-- What rows are ordered by. -/
inductive OrderTarget where
  | column (column : Column)
  /-- The number that a query returns. -/
  | count (select : Select)

end

instance : Inhabited Select := ⟨⟨[], none, none, none, none⟩⟩

/-- A value written to a column. -/
structure Assignment where
  column : String
  value : Operand

/-- A statement. -/
inductive Statement where
  | select (select : Select)
  /-- Add a row, and return a column of it. -/
  | insert (table : String) (assignments : List Assignment) (returning : String)
  | update (table : String) (assignments : List Assignment) (filter : Condition)
  | delete (table : String) (filter : Condition)

end ResourceQuery.Sql
