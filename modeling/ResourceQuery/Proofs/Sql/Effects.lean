import Mathlib.Logic.Function.Basic
import ResourceQuery.Proofs.Sql.Semantics

/-!
# What statements do

A statement that changes a table looks at its rows one by one.  Rows that meet its condition are
written to or removed, and a row may be added.

## Main Definitions

- `Sql.Condition.truthIn`: the truth of a condition for the row that a statement looks at.
- `Sql.Row.write`: a row with values written to some of its columns.
- `Sql.Statement.effect`: what a statement does to a database, and how many rows it affects.

## Main Statements

- `Sql.Condition.isTrue_truthIn_equalsAny`: a column equals one of several values, however that is
  written.
- `Sql.Row.write_singleton`: one written column.

## Design Notes

Columns of the changed table are named without a table, so a condition looks at one row and not at
a binding; queries inside it see nothing of that row.  A database may refuse a statement for reasons
of its own, such as constraints of the table; that is left out, like every other failure.
-/

namespace ResourceQuery.Sql

variable {e : Engine}

/-! ### Looking at a row -/

/-- The value of a column in the row that a statement looks at. -/
def Column.valueIn (c : Column) (row : Row e) : Option e.Datum :=
  match c.alias? with
  | none => row c.name
  | some _ => none

/-- The value of an operand for the row that a statement looks at. -/
def Operand.valueIn (db : Database e) (row : Row e) : Operand → Option e.Datum
  | .column c => c.valueIn row
  | operand => operand.value db Binding.empty

mutual

/-- **The truth of a condition** for the row that a statement looks at. -/
def Condition.truthIn (db : Database e) (row : Row e) : Condition → Truth
  | .comparison left op right =>
    if left.isNull && !right.isNull then e.compareNull op (right.valueIn db row)
    else if right.isNull then e.compareNull op (left.valueIn db row)
    else e.compare op (left.valueIn db row) (right.valueIn db row)
  | .logical op terms => op.truth (Condition.truthsIn db row terms)
  | .not term => (Condition.truthIn db row term).not
  | .like column text kind => e.like (column.valueIn row) text kind
  | .isIn column values =>
    Truth.any (values.map (fun p => e.compare .equal (column.valueIn row) (e.parameter p.value)))
  | .nonempty select => .ofBool (!(select.answers db Binding.empty).isEmpty)

/-- The truth of several conditions for the row that a statement looks at. -/
def Condition.truthsIn (db : Database e) (row : Row e) : List Condition → List Truth
  | [] => []
  | term :: rest => Condition.truthIn db row term :: Condition.truthsIn db row rest

end

/-- **A column equals one of several values**, which is written in another way if there is only
one. -/
theorem Condition.isTrue_truthIn_equalsAny (db : Database e) (row : Row e) (column : Column)
    (values : List Parameter) :
    ((equalsAny column values).truthIn db row).isTrue
      = values.any (fun p => e.same (column.valueIn row) (e.parameter p.value)) := by
  have several : ((isIn column values).truthIn db row).isTrue
      = values.any (fun p => e.same (column.valueIn row) (e.parameter p.value)) := by
    rw [Condition.truthIn, Truth.isTrue_any, List.any_map]
    rfl
  match values with
  | [value] =>
    rw [List.any_cons, List.any_nil, Bool.or_false]
    rfl
  | [] => exact several
  | _ :: _ :: _ => exact several

/-! ### Writing to a row -/

/-- **A row with values written to some of its columns.**  What is written is computed from the row
as it was. -/
def Row.write (db : Database e) (row : Row e) (written : List Assignment) : Row e := fun column =>
  match written.find? (fun a => a.column = column) with
  | some a => a.value.valueIn db row
  | none => row column

@[simp] theorem Row.write_nil (db : Database e) (row : Row e) : row.write db [] = row := rfl

theorem Row.write_cons (db : Database e) (row : Row e) (column other : String) (value : Operand)
    (rest : List Assignment) :
    row.write db (⟨column, value⟩ :: rest) other
      = if other = column then value.valueIn db row else row.write db rest other := by
  by_cases same : column = other
  · simp [Row.write, same]
  · simp [Row.write, same, Ne.symm same]

/-- One written column. -/
theorem Row.write_singleton (db : Database e) (row : Row e) (column : String) (value : Operand) :
    row.write db [⟨column, value⟩] = Function.update row column (value.valueIn db row) := by
  funext other
  rw [Row.write_cons, Row.write_nil, Function.update_apply]

/-! ### Changing a database -/

/-- **What a statement does to a database**, and the number of rows that it affects.  The database
itself gives values to the columns of a new row that are not written. -/
def Statement.effect (defaults : Row e) (db : Database e) : Statement → Database e × Nat
  | .select _ => (db, 0)
  | .insert table written _ =>
    (Function.update db table (db table ++ [defaults.write db written]), 1)
  | .update table written filter =>
    (Function.update db table ((db table).map (fun row =>
        if (filter.truthIn db row).isTrue then row.write db written else row)),
      (db table).countP (fun row => (filter.truthIn db row).isTrue))
  | .delete table filter =>
    (Function.update db table ((db table).filter (fun row => !(filter.truthIn db row).isTrue)),
      (db table).countP (fun row => (filter.truthIn db row).isTrue))

end ResourceQuery.Sql
