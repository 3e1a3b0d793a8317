import ResourceQuery.Compile.Filter
import ResourceQuery.Compile.Sort
import ResourceQuery.Request.Fetch

/-!
# What is selected

The columns of the wanted attributes, and the tables of the wanted relationships.

## Main Definitions

- `Compile.selectedColumns`: the columns that a selection asks for.
- `Fetch.compile`: the joins and selectors for everything to be followed from a table.
- `Fetch.reachesToMany`: can following multiply rows.
-/

namespace ResourceQuery

open Sql (Table Source Selector OrderTerm)

namespace Compile

/-! ### Columns -/

/-- The columns of a list of attributes, or nothing if a calculated one is among them.  The
identifier needs no mention, and attributes after a calculated one do not matter. -/
def wantedColumns (resourceType : String) (info : ResourceType) :
    List String → Except CompileError (Option (List String))
  | [] => .ok (some [])
  | name :: rest =>
    if name = Schema.idField then wantedColumns resourceType info rest
    else
      match info.attributes.get? name with
      | none => .error (.attributeNotFound resourceType name)
      | some found =>
        match found.column? with
        | none => .ok none
        | some column => do
          return (← wantedColumns resourceType info rest).map (column :: ·)

/-- The columns that a selection asks for, in the order of the table.  All columns that store
values are selected if there is no selection, if it names relationships only, or if a calculated
attribute is wanted, because such a value may depend on all of them. -/
def selectedColumns (schema : Schema) (table : Table) (selection? : Option Selection) :
    Except CompileError (List String) :=
  match selection? with
  | none => .ok table.scalars
  | some selection =>
    if selection.attributes.isEmpty && !selection.relationships.isEmpty then .ok table.scalars
    else do
      let info ← CompileError.ofLookup (schema.resourceType table.resourceType)
      match ← wantedColumns table.resourceType info selection.attributes with
      | none => return table.scalars
      | some wanted =>
        return table.scalars.filter (fun column => column = info.idColumn || column ∈ wanted)

/-- Selectors for columns of a table, taken from the source that provides them: the table itself or
a derived table around it. -/
def columnSelectors (table : Table) (source : Source) :
    List String → Except Sql.TreeError (List Selector)
  | [] => .ok []
  | name :: rest => do
    let column ← source.getColumn name (some table.tableAlias)
    return .column column none :: (← columnSelectors table source rest)

/-- Selectors for what a selection asks for. -/
def selectors (schema : Schema) (table : Table) (source : Source)
    (selection? : Option Selection) : Compile (List Selector) := do
  let names ← lift (selectedColumns schema table selection?)
  tree (columnSelectors table source names)

/-! ### Relationships -/

/-- Join the rows that a to-many relationship leads to and that a filter admits.  They are selected
in a derived table; the table inside it is returned too. -/
def joinFiltered (schema : Schema) (source : Table) (name : String) (filter : Filter) :
    Compile (Table × Source) := do
  let relationship ← lookup (schema.relationship source.resourceType name)
  if relationship.isToMany then
    let key ← lookup (schema.foreignKeyOf source.resourceType name)
    let base ← newTable schema relationship.target
    let select ← queryTable base .columns (Filter.compileOption schema base (some filter))
    let enclosing ← newAlias
    let derived ← tree (Source.ofSelect select enclosing)
    changeDraft (·.move base.tableAlias enclosing)
    let (outer, inner) ← tree (keyColumns key source base)
    let on ← tree (Sql.JoinOn.make .left derived outer inner)
    changeDraft (·.addJoin ⟨derived, on⟩)
    return (base, derived)
  else fail (.expectedToMany source.resourceType name)

/-- Join what a relationship leads to, restricted by a filter if there is one. -/
def joinRelated (schema : Schema) (source : Table) (name : String) (filter? : Option Filter) :
    Compile (Table × Source) := do
  match filter? with
  | some filter => joinFiltered schema source name filter
  | none =>
    let table ← joinRelationship schema source name
    return (table, .table table)

/-- Select from a source, under its alias. -/
def selectFrom (source : Source) (selectors : List Selector) : Compile Unit :=
  match source.alias? with
  | some a => changeDraft (·.addSelectors a selectors)
  | none => return ()

/-- Join a relationship, select from it, and return the criteria that it adds to the order: those
of its own layer and, if it multiplies rows, its identifier. -/
def joinLayer (schema : Schema) (source : Table) (name : String) (layer : Layer) :
    Compile (Table × List OrderTerm) := do
  let relationship ← lookup (schema.relationship source.resourceType name)
  let (table, provider) ← joinRelated schema source name layer.filter?
  selectFrom provider (← selectors schema table provider layer.selection?)
  let terms ← orderTerms schema table (layer.sort?.getD [])
  if relationship.isToMany then
    let id ← tree table.idColumn
    return (table, terms ++ [⟨.column id, false⟩])
  else return (table, terms)

end Compile

namespace Fetch

mutual

/-- Join and select everything to be followed from a table, and return the criteria that this adds
to the order. -/
def compile (schema : Schema) (table : Table) : Fetch → Compile (List OrderTerm)
  | mk _ relationships => compileAll schema table relationships

/-- Join and select a list of relationships, each with everything to be followed from there. -/
def compileAll (schema : Schema) (table : Table) :
    List (String × Fetch) → Compile (List OrderTerm)
  | [] => return []
  | (name, fetch) :: rest => do
    let (target, terms) ← Compile.joinLayer schema table name fetch.layer
    let below ← compile schema target fetch
    let after ← compileAll schema table rest
    return terms ++ below ++ after

end

mutual

/-- Does anything to be followed from a resource type lead to many resources. -/
def reachesToMany (schema : Schema) (resourceType : String) : Fetch → Except LookupError Bool
  | mk _ relationships => anyToMany schema resourceType relationships

/-- Does one of several relationships, or anything to be followed from there, lead to many
resources. -/
def anyToMany (schema : Schema) (resourceType : String) :
    List (String × Fetch) → Except LookupError Bool
  | [] => .ok false
  | (name, fetch) :: rest => do
    let relationship ← schema.relationship resourceType name
    if relationship.isToMany then return true
    else if ← reachesToMany schema relationship.target fetch then return true
    else anyToMany schema resourceType rest

end

end Fetch

end ResourceQuery
