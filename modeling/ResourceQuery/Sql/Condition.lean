import ResourceQuery.Sql.Tree

/-!
# Building conditions

## Main Definitions

- `Sql.Condition.combine`: terms combined by one operator, without needless nesting.
- `Sql.Condition.equalsAny`: a column equals one of several values.
- `Sql.Select.restrict`: a query with one more condition.
-/

namespace ResourceQuery.Sql

/-- Is a side of a comparison null. -/
def Operand.isNull : Operand → Bool
  | .null => true
  | _ => false

namespace Condition

/-- The terms that a condition contributes to a combination: its own terms if it is combined by the
same operator, else itself. -/
def termsFor (op : LogicalOp) : Condition → List Condition
  | logical inner terms => if inner = op then terms else [logical inner terms]
  | c => [c]

/-- Combine terms.  Terms combined by the same operator are merged, and a single term stands for
itself. -/
def combine (op : LogicalOp) (terms : List Condition) : Condition :=
  match terms.flatMap (termsFor op) with
  | [term] => term
  | terms => logical op terms

/-- All of the terms hold. -/
def all (terms : List Condition) : Condition :=
  combine .and terms

/-- One of the terms holds. -/
def any (terms : List Condition) : Condition :=
  combine .or terms

/-- Two columns are equal. -/
def columnsEqual (left right : Column) : Condition :=
  comparison (.column left) .equal (.column right)

/-- A column equals a value. -/
def equals (column : Column) (value : Parameter) : Condition :=
  comparison (.column column) .equal (.parameter value)

/-- A column is null. -/
def isNull (column : Column) : Condition :=
  comparison (.column column) .equal .null

/-- A column equals one of several values. -/
def equalsAny (column : Column) : List Parameter → Condition
  | [value] => equals column value
  | values => isIn column values

end Condition

/-- A query with a condition before those that it already has. -/
def Select.restrict (select : Select) (condition : Condition) : Select :=
  { select with
    filter? := some (match select.filter? with
      | none => condition
      | some existing => Condition.all [condition, existing]) }

end ResourceQuery.Sql
