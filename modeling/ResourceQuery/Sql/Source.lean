import ResourceQuery.Sql.Error
import ResourceQuery.Sql.Tree

/-!
# Columns of sources

What can be referred to in a table or a derived table.

## Main Definitions

- `Sql.Source.findColumn?`, `Sql.Source.getColumn`: a column by its name.
- `Sql.Source.idColumn`: the identifier column.
- `Sql.Source.declares`: is a table this source or a part of it.
- `Sql.Source.ofSelect`: a query as a derived table.
- `Sql.JoinOn.make`: a join condition between a source and what lies outside it.
-/

namespace ResourceQuery.Sql

namespace Table

/-- A reference to a column that stores a value. -/
def scalar (t : Table) (name : String) : Column :=
  .inTable name .scalar (some t.tableAlias)

/-- A reference to a column that refers to another resource. -/
def foreignKey (t : Table) (name : String) : Column :=
  .inTable name .foreignKey (some t.tableAlias)

/-- The columns that store values. -/
def scalarColumns (t : Table) : List Column :=
  t.scalars.map t.scalar

/-- The columns that refer to other resources. -/
def foreignKeyColumns (t : Table) : List Column :=
  t.foreignKeys.map t.foreignKey

/-- All columns. -/
def columns (t : Table) : List Column :=
  t.scalarColumns ++ t.foreignKeyColumns

/-- The column with a name. -/
def findColumn? (t : Table) (name : String) : Option Column :=
  if name ∈ t.scalars then some (t.scalar name)
  else if name ∈ t.foreignKeys then some (t.foreignKey name)
  else none

/-- The column with a name, which has to exist. -/
def getColumn (t : Table) (name : String) : Except TreeError Column :=
  match t.findColumn? name with
  | some column => .ok column
  | none => .error (.columnNotFound name (some t.tableAlias))

/-- The identifier column: the first that stores a value. -/
def idColumn (t : Table) : Except TreeError Column :=
  match t.scalars with
  | name :: _ => .ok (t.scalar name)
  | [] => .error (.noColumns (some t.tableAlias))

end Table

namespace Select

/-- The select list. -/
def selectors (s : Select) : List Selector :=
  s.entries.flatMap Entry.selectors

/-- The column of a selector with the name given to it, if it selects a column. -/
def columnOf? : Selector → Option (Column × Option String)
  | .column column rename? => some (column, rename?)
  | _ => none

/-- The columns of the select list, with the names given to them. -/
def columnSelectors (s : Select) : List (Column × Option String) :=
  s.selectors.filterMap columnOf?

/-- A selected column as it is seen from outside. -/
def expose (s : Select) (selected : Column × Option String) : Column :=
  .inSelect selected.1 selected.2 s.alias?

/-- The source that the query starts from. -/
def start? (s : Select) : Option Source :=
  (s.entries.find? (fun e => e.join?.isNone)).map Entry.source

/-- Is this the selected column meant by a name: the name it is given, if no table inside is asked
for, or the name that it or a column it comes from has in that table. -/
def provides (name : String) (inside? : Option TableAlias) (selected : Column × Option String) :
    Bool :=
  (selected.2.getD selected.1.name = name && inside?.isNone) || selected.1.refersTo name inside?

/-- The first selected column meant by a name. -/
def findColumn? (s : Select) (name : String) (inside? : Option TableAlias) : Option Column :=
  (s.columnSelectors.find? (provides name inside?)).map s.expose

end Select

namespace Source

/-- The name of a source. -/
def alias? : Source → Option TableAlias
  | table t => some t.tableAlias
  | derived s => s.alias?

/-- The column meant by a name.  For a derived table this may be restricted to columns of one of
the tables inside it. -/
def findColumn? (source : Source) (name : String) (inside? : Option TableAlias) :
    Option Column :=
  match source with
  | table t =>
    if inside?.isNone || inside? = some t.tableAlias then t.findColumn? name else none
  | derived s => s.findColumn? name inside?

/-- The column meant by a name, which has to exist. -/
def getColumn (source : Source) (name : String) (inside? : Option TableAlias) :
    Except TreeError Column :=
  match source.findColumn? name inside? with
  | some column => .ok column
  | none => .error (.columnNotFound name source.alias?)

/-- The identifier column.  For a derived table this is the first column, or the first that comes
from one of the tables inside it. -/
def idColumn (source : Source) (inside? : Option TableAlias) : Except TreeError Column :=
  match source with
  | table t => t.idColumn
  | derived s =>
    match s.columnSelectors.find? (fun c => inside?.isNone || c.1.origin? = inside?) with
    | some selected => .ok (s.expose selected)
    | none => .error (.noColumns s.alias?)

mutual

/-- Is this alias the name of the source or of a source inside it. -/
def declares (a : TableAlias) : Source → Bool
  | table t => t.tableAlias = a
  | derived ⟨entries, _, _, _, alias?⟩ => alias? = some a || declaresAny a entries

/-- Is this alias the name of a source in a list or of a source inside one. -/
def declaresAny (a : TableAlias) : List Entry → Bool
  | [] => false
  | ⟨source, _, _⟩ :: rest => declares a source || declaresAny a rest

end

/-- Does a column belong to this source or to a source inside it. -/
def owns (source : Source) (column : Column) : Bool :=
  match column.alias? with
  | some a => source.declares a
  | none => false

/-- A query as a derived table.  It has to select a column. -/
def ofSelect (select : Select) (a : TableAlias) : Except TreeError Source :=
  if select.columnSelectors.isEmpty then .error (.noColumns (some a))
  else .ok (derived { select with alias? := some a })

end Source

/-- A join condition.  The inner column has to belong to the joined source, the outer one must
not. -/
def JoinOn.make (kind : JoinKind) (source : Source) (outer inner : Column) :
    Except TreeError JoinOn :=
  if source.owns inner && !source.owns outer then .ok { kind, outer, inner }
  else .error (.invalidJoinColumns outer.name inner.name source.alias?)

end ResourceQuery.Sql
