import ResourceQuery.Sql.Positional
import ResourceQuery.Store.Error
import ResourceQuery.Store.Metrics

/-!
# Databases

A database is a machine that answers calls.  Nothing is assumed about its answers: any call may
fail, and any number of rows may be reported.

## Main Definitions

- `Store`: a database with states of some type.
- `Store.Call`, `Store.Call.Reply`: what can be asked of it, and the answers.
- `Session`: a database in use, with the calls made so far and what was counted of them.
- `Action`: a computation that uses a database.

## Design Notes

A session keeps every call together with its reply, so that statements about a run are statements
about this trace.  An action that fails keeps what it did to the session.
-/

namespace ResourceQuery

/-- The values of one row, in the order of the selected columns. -/
abbrev Row := List Json

namespace Store

/-- A call to a database. -/
inductive Call where
  /-- Run a query and return its rows. -/
  | fetchRows (statement : Sql.Rendered)
  /-- Run a query that returns a single count. -/
  | fetchCount (statement : Sql.Rendered)
  /-- Start a transaction. -/
  | start
  /-- Run a change inside the transaction and return the number of affected rows. -/
  | execute (statement : Sql.Rendered)
  /-- Add a row inside the transaction and return its identifier. -/
  | fetchId (statement : Sql.Rendered)
  /-- Keep what the transaction did. -/
  | commit
  /-- Undo what the transaction did. -/
  | rollback
deriving DecidableEq

/-- The answer to a call that succeeds. -/
def Call.Reply : Call → Type
  | fetchRows _ => List Row
  | fetchCount _ => UInt64
  | start => Unit
  | execute _ => UInt64
  | fetchId _ => Sql.Value
  | commit => Unit
  | rollback => Unit

/-- The name of a call. -/
def Call.name : Call → String
  | fetchRows _ => "fetchRows"
  | fetchCount _ => "fetchCount"
  | start => "begin"
  | execute _ => "execute"
  | fetchId _ => "fetchId"
  | commit => "commit"
  | rollback => "rollback"

/-- The statement that a call sends. -/
def Call.statement? : Call → Option Sql.Rendered
  | fetchRows s => some s
  | fetchCount s => some s
  | execute s => some s
  | fetchId s => some s
  | start => none
  | commit => none
  | rollback => none

/-- A call that was made, with its reply. -/
structure Event where
  call : Call
  reply : Except StoreError call.Reply

end Store

/-- A database whose states have the type `σ`. -/
structure Store (σ : Type) where
  /-- The reply to a call in a state, and the state that follows. -/
  answer : (call : Store.Call) → σ → Except StoreError call.Reply × σ

/-- A database in use. -/
structure Session (σ : Type) where
  /-- The state of the database. -/
  state : σ
  /-- What was counted so far. -/
  metrics : Metrics
  /-- The calls made so far, the oldest first. -/
  trace : List Store.Event

/-- A session in which nothing has happened yet. -/
def Session.start {σ : Type} (state : σ) : Session σ :=
  ⟨state, Metrics.zero, []⟩

/-- A computation that uses a database with states of type `σ`, and may fail. -/
abbrev Action (σ ε α : Type) := ExceptT ε (StateM (Session σ)) α

namespace Action

variable {σ ε ε' α : Type}

/-- Record something that is counted. -/
def count (record : Metrics → Metrics) : Action σ ε Unit :=
  modify (fun s => { s with metrics := record s.metrics })

/-- The action with its errors reported in another way. -/
def mapError (f : ε → ε') (action : Action σ ε α) : Action σ ε' α :=
  ExceptT.mk (Except.mapError f <$> action.run)

/-- The result of a computation that uses no database. -/
def ofExcept (result : Except ε α) : Action σ ε α :=
  ExceptT.mk (pure result)

/-- The outcome of an action, which then does not fail any more. -/
def outcome (action : Action σ ε α) : Action σ ε' (Except ε α) :=
  ExceptT.lift action.run

end Action

namespace Store

variable {σ : Type}

/-- Make a call. -/
def call (store : Store σ) (c : Call) : Action σ StoreError c.Reply :=
  ExceptT.mk fun s =>
    let (reply, state) := store.answer c s.state
    (reply, { s with state, trace := s.trace ++ [⟨c, reply⟩] })

/-- Make a call that sends a statement, which is counted first. -/
def send (store : Store σ) (c : Call) : Action σ StoreError c.Reply := do
  Action.count Metrics.countStatement
  store.call c

/-- A database to which no connection can be opened.  A statement is still checked for parameters
without values before that is noticed. -/
def closed : Store Unit where
  answer c state :=
    match c.statement?.map Sql.Rendered.positional with
    | some (.error e) => (.error (.statement (.unboundParameter e.name)), state)
    | _ => (.error (.connection .poolClosed), state)

end Store

end ResourceQuery
