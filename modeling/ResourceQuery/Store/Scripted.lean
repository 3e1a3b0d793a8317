import ResourceQuery.Store.Basic

/-!
# A database that follows a script

Answers calls from prepared lists, fails where it is told to, and records the statements it is
given.

## Main Definitions

- `Script`: the prepared answers.
- `Script.State`: what is left of them, and what was recorded.
- `Script.store`: the database.
-/

namespace ResourceQuery

/-- Prepared answers to calls. -/
structure Script where
  /-- The rows of every query. -/
  rows : List Row
  /-- The answer to every count. -/
  count : UInt64
  /-- The numbers of rows that statements affect, in order, and one when none is left. -/
  affected : List UInt64
  /-- The identifiers of new rows, in order, and one when none is left. -/
  returnedIds : List Sql.Value
  /-- The calls that fail, numbered from zero, and how. -/
  faults : List (Nat × StoreError)

namespace Script

/-- A script without answers and faults. -/
def empty : Script := ⟨[], 0, [], [], []⟩

/-- What is left of the answers of a script, and what was recorded. -/
structure State where
  /-- The number of calls so far. -/
  calls : Nat
  affected : List UInt64
  returnedIds : List Sql.Value
  /-- The statements of calls that did not fail, the oldest first. -/
  statements : List Sql.Rendered
  /-- Was a transaction kept. -/
  committed : Bool
  /-- Was a transaction undone. -/
  rolledBack : Bool

/-- The state before the first call. -/
def start (script : Script) : State where
  calls := 0
  affected := script.affected
  returnedIds := script.returnedIds
  statements := []
  committed := false
  rolledBack := false

/-- Record a statement. -/
def State.record (state : State) (statement : Sql.Rendered) : State :=
  { state with statements := state.statements ++ [statement] }

/-- The answer to a call that does not fail. -/
def reply (script : Script) (state : State) : (call : Store.Call) → call.Reply × State
  | .fetchRows s => (script.rows, state.record s)
  | .fetchCount s => (script.count, state.record s)
  | .start => ((), state)
  | .execute s =>
    (state.affected.head?.getD 1, { state.record s with affected := state.affected.tail })
  | .fetchId s =>
    (state.returnedIds.head?.getD (.int 1),
      { state.record s with returnedIds := state.returnedIds.tail })
  | .commit => ((), { state with committed := true })
  | .rollback => ((), { state with rolledBack := true })

/-- The database that follows a script.  A call that fails has no effect except that it is
counted. -/
def store (script : Script) : Store State where
  answer call state :=
    let next := { state with calls := state.calls + 1 }
    match script.faults.lookup state.calls with
    | some error => (.error error, next)
    | none =>
      let (answer, next) := script.reply next call
      (.ok answer, next)

end Script

end ResourceQuery
