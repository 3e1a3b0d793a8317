import ResourceQuery.Change.Set
import ResourceQuery.Compile.Names
import ResourceQuery.Sql.Condition
import ResourceQuery.Sql.Render

/-!
# Statements that apply changes

Each statement of a plan comes with the number of rows that it has to affect.  Parameters are
numbered anew in each of them, and columns are named without a table.

## Main Definitions

- `MutationStep`: a statement and what it has to affect.
- `ChangeSet.planUpdate`, `ChangeSet.planCreate`, `ChangeSet.planAfterCreate`: the steps for an
  existing resource, for a new one, and for resources that refer to a new one.
- `planDelete`: the step that removes a resource.
-/

namespace ResourceQuery

open Sql (Statement Assignment Operand Condition Column)

/-- The number of rows that a statement has to affect. -/
inductive RowExpectation where
  | exactly (rows : Nat)
  | atMostOne
  /-- One row is added, and its identifier returned. -/
  | returnsId
deriving DecidableEq

namespace RowExpectation

/-- Is an expectation met. -/
def isMetBy (affected : Nat) : RowExpectation → Bool
  | exactly rows => affected = rows
  | atMostOne => affected ≤ 1
  | returnsId => affected = 1

/-- An expectation in words. -/
def text : RowExpectation → String
  | exactly rows => "Exactly(" ++ natText rows ++ ")"
  | atMostOne => "AtMostOne"
  | returnsId => "ReturnsId"

end RowExpectation

/-- A statement and the number of rows that it has to affect. -/
structure MutationStep where
  statement : Statement
  expectation : RowExpectation

/-- The text of a step's statement. -/
def MutationStep.render (step : MutationStep) : Sql.Rendered :=
  step.statement.render

/-- The steps that create a resource, up to the one that adds it. -/
structure CreatePlan where
  beforeInsert : List MutationStep
  insert : MutationStep

namespace ChangeSet

/-! ### Parts of statements -/

/-- Parameters for a list of identifiers. -/
def idParameters : Names → List ResourceId → List Sql.Parameter
  | _, [] => []
  | names, id :: rest =>
    let (p, names) := names.nextParameter id.toValue
    p :: idParameters names rest

/-- A column named without a table. -/
def plainColumn (name : String) : Column :=
  .inTable name .scalar none

/-- A column equals one of several identifiers. -/
def isOneOf (names : Names) (column : String) (ids : List ResourceId) : Condition :=
  Condition.equalsAny (plainColumn column) (idParameters names ids)

/-- The values written to columns.  A null is written as such, all else as parameters; the names
given to them are returned. -/
def assignments : Names → List (String × Sql.Value) → List Assignment × Names
  | names, [] => ([], names)
  | names, (column, value) :: rest =>
    match value with
    | .null =>
      let (others, names) := assignments names rest
      (⟨column, .null⟩ :: others, names)
    | value =>
      let (p, names) := names.nextParameter value
      let (others, names) := assignments names rest
      (⟨column, .parameter p⟩ :: others, names)

/-- Clear a foreign key in the rows that meet a condition, or delete them if it cannot be null. -/
def clearOrDelete (table column : String) (nullable : Bool) (filter : Condition) : Statement :=
  if nullable then .update table [⟨column, .null⟩] filter else .delete table filter

/-! ### Related resources -/

/-- The table of related resources that stores a foreign key. -/
structure RelatedTable where
  name : String
  idColumn : String
  key : ForeignKey

/-- The table that stores the foreign key of a relationship, which has to be the target's. -/
def relatedTable (schema : Schema) (resourceType relationship : String) :
    Except CompileError RelatedTable := do
  let info ← CompileError.ofLookup (schema.relationship resourceType relationship)
  let key ← CompileError.ofLookup (schema.foreignKeyOf resourceType relationship)
  if key.ownedBy = .right then
    let target ← CompileError.ofLookup (schema.resourceType info.target)
    return ⟨target.tableName, target.idColumn, key⟩
  else throw (.unsupported (.movingForeignKey relationship resourceType))

/-- Take related resources away. -/
def RelatedTable.release (t : RelatedTable) (ids : List ResourceId) : MutationStep where
  statement :=
    clearOrDelete t.name t.key.column t.key.nullable (isOneOf Names.fresh t.idColumn ids)
  expectation := .exactly ids.length

/-- Make related resources refer to a resource. -/
def RelatedTable.pointTo (t : RelatedTable) (id : ResourceId) (ids : List ResourceId) :
    MutationStep :=
  let (p, names) := Names.fresh.nextParameter id.toValue
  { statement := .update t.name [⟨t.key.column, .parameter p⟩] (isOneOf names t.idColumn ids)
    expectation := .exactly ids.length }

/-- The steps that take some related resources away and add others. -/
def RelatedTable.replace (t : RelatedTable) (id : ResourceId) (removed added : List ResourceId) :
    List MutationStep :=
  (if removed.isEmpty then [] else [t.release removed])
    ++ (if added.isEmpty then [] else [t.pointTo id added])

/-- The changes of foreign keys that other tables store: for each relationship the resources taken
away and those added. -/
def relatedChanges (c : ChangeSet) : List (String × List ResourceId × List ResourceId) :=
  c.toOneAtRight.map (fun r => (r.relationship, r.old?.toList, r.new?.toList))
    ++ c.toMany.map (fun r => (r.relationship, r.removed, r.added))

/-- The steps for a list of relationships. -/
def relatedSteps (schema : Schema) (resourceType : String) (id : ResourceId) :
    List (String × List ResourceId × List ResourceId) → Except CompileError (List MutationStep)
  | [] => .ok []
  | (name, removed, added) :: rest => do
    let table ← relatedTable schema resourceType name
    return table.replace id removed added ++ (← relatedSteps schema resourceType id rest)

/-- The steps that change the foreign keys in other tables. -/
def planRelated (schema : Schema) (c : ChangeSet) (id : ResourceId) :
    Except CompileError (List MutationStep) :=
  relatedSteps schema c.resourceType id c.relatedChanges

/-! ### Exclusive relationships -/

/-- The step that takes a resource away from whichever resource of the same type refers to it. -/
def releaseStep (schema : Schema) (resourceType : String) (change : OneToOneChange) :
    Except LookupError MutationStep := do
  let key ← schema.foreignKeyOf resourceType change.relationship
  let info ← schema.resourceType resourceType
  return {
    statement := clearOrDelete info.tableName key.column key.nullable
      (isOneOf Names.fresh key.column [change.new])
    expectation := .atMostOne }

/-- The steps that make room for one-to-one relationships. -/
def planRelease (schema : Schema) (c : ChangeSet) : Except CompileError (List MutationStep) :=
  CompileError.ofLookup (c.oneToOne.mapM (releaseStep schema c.resourceType))

/-! ### Plans -/

/-- The step that writes the changed columns of a resource, if there are any. -/
def ownStep (info : ResourceType) (c : ChangeSet) (id : ResourceId) : List MutationStep :=
  if c.columns.isEmpty then []
  else
    let (written, names) := assignments Names.fresh c.columns
    [{ statement := .update info.tableName written (isOneOf names info.idColumn [id])
       expectation := .exactly 1 }]

/-- The steps that change an existing resource: make room for one-to-one relationships, write its
own columns, and change the foreign keys in other tables. -/
def planUpdate (schema : Schema) (c : ChangeSet) : Except CompileError (List MutationStep) := do
  c.checkRequired
  match c.resourceId? with
  | none => throw (.missingResourceId c.resourceType)
  | some id =>
    let release ← planRelease schema c
    let info ← CompileError.ofLookup (schema.resourceType c.resourceType)
    let related ← planRelated schema c id
    return release ++ ownStep info c id ++ related

/-- The steps that create a resource, up to the one that adds it. -/
def planCreate (schema : Schema) (c : ChangeSet) : Except CompileError CreatePlan := do
  c.checkRequired
  let beforeInsert ← planRelease schema c
  let info ← CompileError.ofLookup (schema.resourceType c.resourceType)
  return {
    beforeInsert
    insert := {
      statement :=
        .insert info.tableName (assignments Names.fresh c.columns).1 info.idColumn
      expectation := .returnsId } }

/-- The steps that make other resources refer to a new one, whose identifier is known now. -/
def planAfterCreate (schema : Schema) (c : ChangeSet) (id : ResourceId) :
    Except CompileError (List MutationStep) :=
  planRelated schema c id

end ChangeSet

/-- The step that removes a resource. -/
def planDelete (schema : Schema) (resourceType : String) (id : ResourceId) :
    Except CompileError MutationStep := do
  let info ← CompileError.ofLookup (schema.resourceType resourceType)
  return {
    statement := .delete info.tableName (ChangeSet.isOneOf Names.fresh info.idColumn [id])
    expectation := .exactly 1 }

end ResourceQuery
