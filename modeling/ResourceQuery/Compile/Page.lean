import ResourceQuery.Compile.Draft
import ResourceQuery.Configuration.Settings
import ResourceQuery.Request.Basic

/-!
# Pages

## Main Definitions

- `Pagination.compile`: the rows of a page.
- `Compile.firstPage`: the page of requests that ask for none.
-/

namespace ResourceQuery

namespace Compile

/-- The page of requests that ask for none. -/
def firstPage : Pagination := ⟨1, none⟩

/-- The largest page size that settings allow. -/
def maxPageSize (settings : QuerySettings) : UInt32 :=
  settings.maxPageSize?.getD 0xffffffff

/-- The number of rows before a page, as an integer of 64 bits.  The product of two numbers of 32 bits
need not fit, and wraps around then. -/
def pageOffset (number size : UInt32) : Int64 :=
  Int64.ofInt ((number.toNat - 1 : Nat) * size.toNat)

end Compile

/-- The rows of a page.  The first page skips none. -/
def Pagination.compile (settings : QuerySettings) (page : Pagination) : Compile Sql.Limit := do
  let size := page.pageSize?.getD settings.defaultPageSize
  if page.pageNumber = 0 then Compile.fail (.invalidPageNumber page.pageNumber)
  else if size = 0 ∨ size > Compile.maxPageSize settings then
    Compile.fail (.invalidPageSize size (Compile.maxPageSize settings))
  else
    let count ← Compile.newParameter (.int (Int64.ofInt size.toNat))
    if page.pageNumber > 1 then
      let offset ← Compile.newParameter (.int (Compile.pageOffset page.pageNumber size))
      return ⟨count, some offset⟩
    else return ⟨count, none⟩

end ResourceQuery
