import ResourceQuery.Sql.Column
import ResourceQuery.Sql.Value

/-!
# Fresh names

Tables and parameters are numbered as they come up, separately from each other and anew for each
statement.

## Main Definitions

- `Names`: how many names have been given.
- `Names.nextTable`, `Names.nextParameter`: the next name of each kind.

## Design Notes

Names are counted by natural numbers, so that every name is new.  A counter of 32 bits without sign
does the same for the first `2 ^ 32 - 1` tables and as many parameters of one statement; a request
that needs more of them would not fit into memory.
-/

namespace ResourceQuery

/-- How many tables and parameters of a statement have been named. -/
structure Names where
  tables : Nat
  parameters : Nat
deriving DecidableEq

namespace Names

/-- Nothing has been named yet. -/
def fresh : Names := ⟨0, 0⟩

instance : Inhabited Names := ⟨fresh⟩

/-- The name of the parameter with a number. -/
def parameterName (n : Nat) : String :=
  "@p" ++ natText n

/-- Name the next table. -/
def nextTable (n : Names) : Sql.TableAlias × Names :=
  (⟨n.tables + 1⟩, { n with tables := n.tables + 1 })

/-- Name the next parameter. -/
def nextParameter (n : Names) (value : Sql.Value) : Sql.Parameter × Names :=
  (⟨parameterName (n.parameters + 1), value⟩, { n with parameters := n.parameters + 1 })

end Names

end ResourceQuery
