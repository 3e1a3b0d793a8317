import ResourceQuery.Change.Plan

/-!
# Failures of a database

## Main Definitions

- `StoreError`: why a statement could not be run, or was not accepted.
- `StoreError.asUpdateFailure`: the same failure, reported as a failed write.
- `StoreError.message`: the wording.
-/

namespace ResourceQuery

/-- Why the statement itself, or its result, could not be used. -/
inductive StatementError where
  | unboundParameter (name : String)
  | unsupportedColumnType (column typeName : String)
  /-- A count came back as a number of rows other than one. -/
  | unexpectedCountResult (rows : Nat)
  | missingReturnedId
deriving DecidableEq

/-- The wording of an error. -/
def StatementError.message : StatementError → String
  | unboundParameter name =>
    "parameter '" ++ name ++ "' occurs in the statement but has no value"
  | unsupportedColumnType column typeName =>
    "column '" ++ column ++ "' has type '" ++ typeName ++ "', which cannot be read"
  | unexpectedCountResult rows => "expected a single count, got " ++ natText rows ++ " rows"
  | missingReturnedId => "the insert did not return an identifier"

/-- Why the connection to the database failed. -/
inductive ConnectionError where
  /-- The answer of the database makes no sense. -/
  | protocol (text : String)
  /-- No more connections are opened. -/
  | poolClosed
deriving DecidableEq

/-- The wording of an error. -/
def ConnectionError.message : ConnectionError → String
  | protocol text => "encountered unexpected or invalid data: " ++ text
  | poolClosed => "attempted to acquire a connection on a closed pool"

/-- Why a statement could not be run, or was not accepted. -/
inductive StoreError where
  | statement (error : StatementError)
  | connection (error : ConnectionError)
  /-- A statement affected a number of rows other than planned. -/
  | rowCountMismatch (expected : RowExpectation) (affected : Nat)
  /-- A write failed, and nothing of it remains. -/
  | updateFailed (cause : StoreError)
deriving DecidableEq

namespace StoreError

/-- The failure reported as a failed write.  One that is reported so already stays as it is. -/
def asUpdateFailure : StoreError → StoreError
  | updateFailed cause => updateFailed cause
  | error => updateFailed error

/-- The wording of an error. -/
def message : StoreError → String
  | statement error => error.message
  | connection error => error.message
  | rowCountMismatch expected affected =>
    "statement affected " ++ natText affected ++ " rows, expected " ++ expected.text
  | updateFailed cause => "data-store update failed: " ++ cause.message

end StoreError

end ResourceQuery
