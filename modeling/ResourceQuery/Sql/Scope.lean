import ResourceQuery.Sql.Source

/-!
# Scopes

Which sources a reference may name.  A query sees its own sources and those of the queries around
it.

## Main Definitions

- `Sql.Scope`: the visible sources by alias.
- `Sql.ScopeStack`: the scopes of nested queries.
-/

namespace ResourceQuery.Sql

/-- The visible sources, in ascending order of their aliases. -/
structure Scope where
  sources : List (TableAlias × Source)

namespace Scope

/-- The scope in which nothing is visible. -/
def empty : Scope := ⟨[]⟩

instance : Inhabited Scope := ⟨empty⟩

/-- Write a source into an ascending list, replacing the one of the same alias. -/
def insertSource (a : TableAlias) (source : Source) :
    List (TableAlias × Source) → List (TableAlias × Source)
  | [] => [(a, source)]
  | (b, other) :: rest =>
    if a.index < b.index then (a, source) :: (b, other) :: rest
    else if a = b then (a, source) :: rest
    else (b, other) :: insertSource a source rest

/-- Make a source visible.  A source without alias cannot be named. -/
def declare (scope : Scope) (source : Source) : Scope :=
  match source.alias? with
  | some a => ⟨insertSource a source scope.sources⟩
  | none => scope

/-- The source with an alias. -/
def lookup (scope : Scope) (a : TableAlias) : Option Source :=
  scope.sources.lookup a

/-- The aliases that may be named, in ascending order. -/
def visible (scope : Scope) : List TableAlias :=
  scope.sources.map Prod.fst

end Scope

/-- The scope of a query and those of the queries around it, the nearest first. -/
structure ScopeStack where
  current : Scope
  outer : List Scope

namespace ScopeStack

/-- The stack outside all queries. -/
def empty : ScopeStack := ⟨Scope.empty, []⟩

instance : Inhabited ScopeStack := ⟨empty⟩

/-- Enter a query: it sees all that is visible around it. -/
def push (s : ScopeStack) : ScopeStack :=
  ⟨s.current, s.current :: s.outer⟩

/-- Leave a query.  Outside all queries this changes nothing. -/
def pop (s : ScopeStack) : ScopeStack :=
  match s.outer with
  | [] => s
  | scope :: rest => ⟨scope, rest⟩

/-- How many queries have been entered. -/
def depth (s : ScopeStack) : Nat :=
  s.outer.length

/-- Make a source visible in the current query. -/
def declare (s : ScopeStack) (source : Source) : ScopeStack :=
  { s with current := s.current.declare source }

/-- The source with an alias. -/
def lookup (s : ScopeStack) (a : TableAlias) : Option Source :=
  s.current.lookup a

/-- The aliases that may be named in the current query. -/
def visible (s : ScopeStack) : List TableAlias :=
  s.current.visible

end ScopeStack

end ResourceQuery.Sql
