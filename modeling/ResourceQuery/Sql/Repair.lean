import ResourceQuery.Sql.Scope

/-!
# Redirecting references

When a table is moved into a derived table, references made before still name the table, which is
no longer visible where they stand.  A remap records into which derived table each table was moved;
repairing a query redirects every reference that names a hidden table to the column that the
derived table provides for it.

## Main Definitions

- `Sql.Remap`: the derived table that each moved table is now part of.
- `Sql.Remap.redirect`: where a reference leads in a scope.
- `Sql.Select.repair`: a query with all references redirected.

## Design Notes

Select lists are left as they are.  Every source of a query is declared before any of its join
conditions is looked at, and a derived table sees the sources listed before it.  Of the stack of
scopes only the innermost one is passed on: a query is entered with a copy of the scope around it,
which is in force again when the query is left.
-/

namespace ResourceQuery.Sql

/-- The derived table that each moved table is now part of. -/
structure Remap where
  moves : List (TableAlias × TableAlias)
deriving DecidableEq

namespace Remap

/-- The remap without moves. -/
def empty : Remap := ⟨[]⟩

instance : Inhabited Remap := ⟨empty⟩

/-- Replace the entry of a table, or add one at the end. -/
def insertMove (former enclosing : TableAlias) :
    List (TableAlias × TableAlias) → List (TableAlias × TableAlias)
  | [] => [(former, enclosing)]
  | (a, b) :: rest =>
    if a = former then (a, enclosing) :: rest else (a, b) :: insertMove former enclosing rest

/-- Record that a table is now part of a derived table. -/
def insert (m : Remap) (former enclosing : TableAlias) : Remap :=
  ⟨insertMove former enclosing m.moves⟩

/-- The derived table that a table is now part of. -/
def get? (m : Remap) (former : TableAlias) : Option TableAlias :=
  m.moves.lookup former

/-- The column that a visible source provides for a column of a table moved into it. -/
def provided? (scope : Scope) (name : String) (stale enclosing : TableAlias) : Option Column := do
  (← scope.lookup enclosing).findColumn? name (some stale)

/-- Follow at most `steps` moves, up to the first source that provides the column. -/
def follow? (m : Remap) (scope : Scope) (name : String) (stale : TableAlias) :
    Nat → TableAlias → Option Column
  | 0, _ => none
  | steps + 1, former =>
    match m.get? former with
    | none => none
    | some enclosing =>
      match provided? scope name stale enclosing with
      | some column => some column
      | none => follow? m scope name stale steps enclosing

/-- Where a reference leads in a scope.  A reference to a visible source stays; any other follows
the moves of its table.  More moves than there are entries would repeat themselves. -/
def redirect (m : Remap) (scope : Scope) (column : Column) : Except TreeError Column :=
  match column.alias? with
  | none => .ok column
  | some stale =>
    if (scope.lookup stale).isSome then .ok column
    else
      match m.follow? scope column.name stale (m.moves.length + 1) stale with
      | some found => .ok found
      | none => .error (.inaccessibleColumn column.name stale scope.visible)

/-- Redirect both sides of a join condition. -/
def redirectJoin (m : Remap) (scope : Scope) : Option JoinOn → Except TreeError (Option JoinOn)
  | none => .ok none
  | some on => do
    let outer ← m.redirect scope on.outer
    let inner ← m.redirect scope on.inner
    return some { on with outer, inner }

/-- Redirect the join conditions of all sources. -/
def redirectJoins (m : Remap) (scope : Scope) : List Entry → Except TreeError (List Entry)
  | [] => .ok []
  | entry :: rest => do
    let join? ← m.redirectJoin scope entry.join?
    return { entry with join? } :: (← m.redirectJoins scope rest)

end Remap

mutual

/-- Redirect the references of a query that stands in a scope. -/
def Select.redirect (m : Remap) (scope : Scope) : Select → Except TreeError Select
  | ⟨entries, filter?, order?, limit?, alias?⟩ => do
    let (entries, scope) ← Entry.redirectSources m scope entries
    let entries ← m.redirectJoins scope entries
    let filter? ← Condition.redirectOption m scope filter?
    let order? ← OrderTerm.redirectOption m scope order?
    return ⟨entries, filter?, order?, limit?, alias?⟩

/-- Redirect the references inside the sources of a query, and declare them one after the other. -/
def Entry.redirectSources (m : Remap) (scope : Scope) :
    List Entry → Except TreeError (List Entry × Scope)
  | [] => .ok ([], scope)
  | ⟨source, join?, selectors⟩ :: rest => do
    let source ← Source.redirect m scope source
    let (rest, scope) ← Entry.redirectSources m (scope.declare source) rest
    return (⟨source, join?, selectors⟩ :: rest, scope)

/-- Redirect the references inside a source. -/
def Source.redirect (m : Remap) (scope : Scope) : Source → Except TreeError Source
  | .table t => .ok (.table t)
  | .derived select =>
    if select.columnSelectors.isEmpty then .error (.noColumns select.alias?)
    else do return .derived (← Select.redirect m scope select)

/-- Redirect the references of a condition that may be absent. -/
def Condition.redirectOption (m : Remap) (scope : Scope) :
    Option Condition → Except TreeError (Option Condition)
  | none => .ok none
  | some condition => do return some (← Condition.redirect m scope condition)

/-- Redirect the references of a condition. -/
def Condition.redirect (m : Remap) (scope : Scope) : Condition → Except TreeError Condition
  | .comparison left op right => do
    let left ← Operand.redirect m scope left
    let right ← Operand.redirect m scope right
    return .comparison left op right
  | .logical op terms => do return .logical op (← Condition.redirectAll m scope terms)
  | .not term => do return .not (← Condition.redirect m scope term)
  | .like column text kind => do return .like (← m.redirect scope column) text kind
  | .isIn column values => do return .isIn (← m.redirect scope column) values
  | .nonempty select => do return .nonempty (← Select.redirect m scope select)

/-- Redirect the references of several conditions. -/
def Condition.redirectAll (m : Remap) (scope : Scope) :
    List Condition → Except TreeError (List Condition)
  | [] => .ok []
  | term :: rest => do
    let term ← Condition.redirect m scope term
    return term :: (← Condition.redirectAll m scope rest)

/-- Redirect the references of a side of a comparison. -/
def Operand.redirect (m : Remap) (scope : Scope) : Operand → Except TreeError Operand
  | .column column => do return .column (← m.redirect scope column)
  | .parameter p => .ok (.parameter p)
  | .null => .ok .null
  | .count select => do return .count (← Select.redirect m scope select)

/-- Redirect the references of an order that may be absent. -/
def OrderTerm.redirectOption (m : Remap) (scope : Scope) :
    Option (List OrderTerm) → Except TreeError (Option (List OrderTerm))
  | none => .ok none
  | some terms => do return some (← OrderTerm.redirectAll m scope terms)

/-- Redirect the references of the criteria of an order. -/
def OrderTerm.redirectAll (m : Remap) (scope : Scope) :
    List OrderTerm → Except TreeError (List OrderTerm)
  | [] => .ok []
  | ⟨target, descending⟩ :: rest => do
    let target ← OrderTarget.redirect m scope target
    return ⟨target, descending⟩ :: (← OrderTerm.redirectAll m scope rest)

/-- Redirect the references of what rows are ordered by. -/
def OrderTarget.redirect (m : Remap) (scope : Scope) :
    OrderTarget → Except TreeError OrderTarget
  | .column column => do return .column (← m.redirect scope column)
  | .count select => do return .count (← Select.redirect m scope select)

end

/-- Redirect all references of a query to tables that were moved.  Without moves nothing is
looked at. -/
def Select.repair (select : Select) (m : Remap) : Except TreeError Select :=
  if m.moves.isEmpty then .ok select else select.redirect m Scope.empty

end ResourceQuery.Sql
