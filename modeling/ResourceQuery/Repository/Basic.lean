import ResourceQuery.Repository.Error
import ResourceQuery.Store.Transaction

/-!
# Reading and writing resources

Reads compile a request and run its queries.  Writes compare a resource before and after, plan the
statements for the difference, and run them in one transaction.

## Main Definitions

- `Repository`: a schema, the settings of queries, and a database.
- `Repository.query`, `Repository.create`, `Repository.update`, `Repository.delete`: the
  operations.

## Design Notes

Everything that can be planned is planned before the database is touched.  Only the resources that
refer to a new one are planned inside the transaction, when its identifier is known.
-/

namespace ResourceQuery

/-- A schema, the settings of queries, and a database with states of type `σ`. -/
structure Repository (σ : Type) where
  schema : Schema
  settings : QuerySettings
  store : Store σ

/-- The identifier in the value returned for a new row. -/
def ResourceId.ofValue? : Sql.Value → Option ResourceId
  | .int n => some (.int n)
  | .string s => some (.string s)
  | _ => none

namespace Repository

variable {σ : Type}

/-- The result of planning. -/
def planned {α : Type} (plan : Except CompileError α) : Action σ RepositoryError α :=
  Action.ofExcept (plan.mapError RepositoryError.ofCompile)

/-- Run statements as part of an operation. -/
def run {α : Type} (action : Action σ StoreError α) : Action σ RepositoryError α :=
  action.mapError RepositoryError.ofStore

/-- Run an action in one transaction. -/
def transaction {α : Type} (repository : Repository σ) (action : Action σ RepositoryError α) :
    Action σ RepositoryError α :=
  repository.store.transaction RepositoryError.ofStore action

/-- The statements that would be run for a request, the count before the page. -/
def statements (schema : Schema) (settings : QuerySettings) (request : Request) :
    Except RepositoryError (List Sql.Rendered) := do
  let plan ← (request.compile schema settings).mapError RepositoryError.ofCompile
  return plan.statements

/-- Read the resources that a request asks for. -/
def query (repository : Repository σ) (request : Request) :
    Action σ RepositoryError QueryResult := do
  let plan ← planned (request.compile repository.schema repository.settings)
  run (plan.run repository.store)

/-- Run statements in one transaction. -/
def runSteps (repository : Repository σ) (steps : List MutationStep) :
    Action σ RepositoryError Unit :=
  repository.transaction (run (MutationStep.runAll repository.store steps))

/-- The steps that turn one snapshot of a resource into another. -/
def planUpdate (schema : Schema) (resourceType : String) (before after : Snapshot) :
    Except CompileError (List MutationStep) := do
  let changes ← ChangeSet.detect schema resourceType (some before) after
  changes.planUpdate schema

/-- Write the difference between two snapshots of a resource. -/
def update (repository : Repository σ) (resourceType : String) (before after : Snapshot) :
    Action σ RepositoryError Unit := do
  let steps ← planned (planUpdate repository.schema resourceType before after)
  repository.runSteps steps

/-- The changes that a new resource brings, and the steps up to the one that adds it. -/
def planCreate (schema : Schema) (resourceType : String) (after : Snapshot) :
    Except CompileError (ChangeSet × CreatePlan) := do
  let changes ← ChangeSet.detect schema resourceType none after
  return (changes, ← changes.planCreate schema)

/-- The identifier that an insertion returned, which has to be usable. -/
def returnedId (value? : Option Sql.Value) : Action σ RepositoryError ResourceId :=
  match value?.bind ResourceId.ofValue? with
  | some id => return id
  | none =>
    throw (RepositoryError.ofStore (StoreError.statement .missingReturnedId).asUpdateFailure)

/-- Add a resource, then make others refer to it. -/
def runCreate (repository : Repository σ) (changes : ChangeSet) (plan : CreatePlan) :
    Action σ RepositoryError ResourceId := do
  run (MutationStep.runAll repository.store plan.beforeInsert)
  let id ← returnedId (← run (plan.insert.run repository.store))
  let afterInsert ← planned (changes.planAfterCreate repository.schema id)
  run (MutationStep.runAll repository.store afterInsert)
  return id

/-- Create a resource and return its identifier. -/
def create (repository : Repository σ) (resourceType : String) (after : Snapshot) :
    Action σ RepositoryError ResourceId := do
  let (changes, plan) ← planned (planCreate repository.schema resourceType after)
  repository.transaction (repository.runCreate changes plan)

/-- Delete a resource.  Deleting one that does not exist fails. -/
def delete (repository : Repository σ) (resourceType : String) (id : ResourceId) :
    Action σ RepositoryError Unit := do
  let step ← planned (planDelete repository.schema resourceType id)
  repository.runSteps [step]

end Repository

end ResourceQuery
