import ResourceQuery.Decimal.Layout

/-!
# References to columns

A column of a statement belongs to a table or to a derived table.  A column of a derived table
remembers the column that was selected inside it, so that a reference can be traced back to the
table it comes from.

## Main Definitions

- `Sql.TableAlias`: the name of a table within one statement.
- `Sql.Column`: a reference to a column.
- `Sql.Column.refersTo`: does a column come from a given column of a given table.

## Design Notes

The number of an alias is a natural number rather than one of 32 bits without sign: the two agree as
long as fewer than `2 ^ 32` tables of a statement are named.
-/

namespace ResourceQuery.Sql

/-- The name of a table within one statement: `t1`, `t2`, … -/
structure TableAlias where
  index : Nat
deriving DecidableEq, Inhabited

/-- The name as it is written. -/
def TableAlias.text (a : TableAlias) : String :=
  "t" ++ natText a.index

theorem TableAlias.toList_text (a : TableAlias) :
    a.text.toList = 't' :: Nat.toDigits 10 a.index := by
  simp [TableAlias.text, natText]

/-- Does a column store a value of the resource itself or a reference to another one. -/
inductive ColumnKind where
  | scalar
  | foreignKey
deriving DecidableEq, Inhabited

/-- A reference to a column. -/
inductive Column where
  /-- A column of a table. -/
  | inTable (name : String) (kind : ColumnKind) (alias? : Option TableAlias)
  /-- A column of a derived table: the column selected there, the name it was given and the alias
  of the derived table. -/
  | inSelect (inner : Column) (rename? : Option String) (alias? : Option TableAlias)
deriving DecidableEq, Inhabited

namespace Column

/-- The name by which a column is known in the table it belongs to. -/
def name : Column → String
  | inTable name _ _ => name
  | inSelect inner rename? _ => rename?.getD inner.name

/-- The alias of the table that a column belongs to. -/
def alias? : Column → Option TableAlias
  | inTable _ _ alias? => alias?
  | inSelect _ _ alias? => alias?

/-- What the column stores. -/
def kind : Column → ColumnKind
  | inTable _ kind _ => kind
  | inSelect inner _ _ => inner.kind

/-- The alias of the table that a column comes from. -/
def origin? : Column → Option TableAlias
  | inTable _ _ alias? => alias?
  | inSelect inner _ _ => inner.origin?

/-- Is a column known by this name in the table with this alias, or in any table if none is
given. -/
def isNamed (c : Column) (name : String) (table? : Option TableAlias) : Bool :=
  c.name = name && (table?.isNone || c.alias? = table?)

/-- Is this column, or a column it was selected from, known by this name in the table with this
alias. -/
def refersTo (c : Column) (name : String) (table? : Option TableAlias) : Bool :=
  match c with
  | inTable .. => c.isNamed name table?
  | inSelect inner _ _ => c.isNamed name table? || inner.refersTo name table?

end Column

end ResourceQuery.Sql
