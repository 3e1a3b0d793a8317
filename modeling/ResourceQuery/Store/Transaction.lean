import ResourceQuery.Compile.Query
import ResourceQuery.Store.Basic

/-!
# Queries and transactions

## Main Definitions

- `QueryPlan.run`: run the queries of a plan.
- `MutationStep.run`: run a statement and check the number of rows it affects.
- `Store.transaction`: run an action so that all or nothing of it remains.
-/

namespace ResourceQuery

variable {σ : Type}

/-- The result of a query: the number of all matching resources, if it was asked for, and the rows
of the page. -/
structure QueryResult where
  totalCount? : Option UInt64
  rows : List Row

/-- Count all matching resources, if the plan says so. -/
def QueryPlan.runCount (plan : QueryPlan) (store : Store σ) :
    Action σ StoreError (Option UInt64) :=
  match plan.count? with
  | none => pure none
  | some query => do
    let total : UInt64 ← store.send (.fetchCount query.render)
    return some total

/-- Run the queries of a plan, the count before the page. -/
def QueryPlan.run (plan : QueryPlan) (store : Store σ) : Action σ StoreError QueryResult := do
  let totalCount? ← plan.runCount store
  let rows : List Row ← store.send (.fetchRows plan.data.render)
  Action.count Metrics.countQuery
  return ⟨totalCount?, rows⟩

namespace MutationStep

/-- Run a statement that affects a number of rows, which has to be the expected one. -/
def runCounted (step : MutationStep) (store : Store σ) : Action σ StoreError Unit := do
  let affected : UInt64 ← store.send (.execute step.render)
  if step.expectation.isMetBy affected.toNat then return ()
  else throw (.rowCountMismatch step.expectation affected.toNat)

/-- Run a step.  A step that returns an identifier gives it back, and every failure is reported as a
failed write. -/
def run (step : MutationStep) (store : Store σ) : Action σ StoreError (Option Sql.Value) :=
  Action.mapError StoreError.asUpdateFailure <|
    match step.expectation with
    | .returnsId => do
      let id : Sql.Value ← store.send (.fetchId step.render)
      return some id
    | _ => do
      step.runCounted store
      return none

/-- Run steps in order, up to the first failure. -/
def runAll (store : Store σ) : List MutationStep → Action σ StoreError Unit
  | [] => return ()
  | step :: rest => do
    let _ ← step.run store
    runAll store rest

end MutationStep

namespace Store

/-- Start a transaction. -/
def begin (store : Store σ) : Action σ StoreError Unit :=
  (store.call .start).mapError StoreError.asUpdateFailure

/-- Keep what a transaction did. -/
def keep (store : Store σ) : Action σ StoreError Unit := do
  (store.call .commit).mapError StoreError.asUpdateFailure
  Action.count Metrics.countMutation

/-- Undo what a transaction did.  A failure to do so is not reported, since the reason for undoing
it is. -/
def undo {ε : Type} (store : Store σ) : Action σ ε Unit := do
  Action.count Metrics.countMutationFailure
  let _ ← (store.call .rollback).outcome

/-- Run an action inside a transaction.  If the action succeeds, what it did is kept, and else it is
undone and the failure of the action reported. -/
def transaction {ε α : Type} (store : Store σ) (report : StoreError → ε)
    (action : Action σ ε α) : Action σ ε α := do
  store.begin.mapError report
  match ← action.outcome with
  | .ok a =>
    store.keep.mapError report
    return a
  | .error e =>
    store.undo
    throw e

end Store

end ResourceQuery
