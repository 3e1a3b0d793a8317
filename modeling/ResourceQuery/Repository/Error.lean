import ResourceQuery.Store.Error

/-!
# Failures of the repository

## Main Definitions

- `RepositoryError`: why a resource could not be read or written.
- `RepositoryError.ofCompile`, `RepositoryError.ofStore`: who is to blame.
- `RepositoryError.message`: the wording.
-/

namespace ResourceQuery

/-- Why a resource could not be read or written. -/
inductive RepositoryError where
  /-- The request asks for something that does not exist or is not supported. -/
  | badRequest (error : CompileError)
  /-- A defect of the compiler. -/
  | defect (error : CompileError)
  /-- The database could not be read. -/
  | unreadable (error : StoreError)
  /-- A write was undone. -/
  | updateFailed (error : StoreError)
deriving DecidableEq

namespace RepositoryError

/-- A request that cannot be compiled is at fault itself, unless the compiler is. -/
def ofCompile (error : CompileError) : RepositoryError :=
  if error.isInternal then .defect error else .badRequest error

/-- Failed writes are reported as such, and so are unexpected numbers of affected rows. -/
def ofStore : StoreError → RepositoryError
  | .updateFailed cause => .updateFailed (.updateFailed cause)
  | .rowCountMismatch expected affected =>
    .updateFailed (StoreError.rowCountMismatch expected affected).asUpdateFailure
  | .statement error => .unreadable (.statement error)
  | .connection error => .unreadable (.connection error)

/-- The wording of an error. -/
def message : RepositoryError → String
  | badRequest error => "bad request: " ++ error.message
  | defect error => "internal error: " ++ error.message
  | unreadable error => "internal error: " ++ error.message
  | updateFailed error => error.message

end RepositoryError

end ResourceQuery
