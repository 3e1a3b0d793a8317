import ResourceQuery.Sql.Column

/-!
# Trees that cannot be built

## Main Definitions

- `Sql.TreeError`: why a tree cannot be built or repaired.
- `Sql.TreeError.message`: the wording.
-/

namespace ResourceQuery.Sql

/-- Why a tree cannot be built or repaired. -/
inductive TreeError where
  /-- A source has no column of this name. -/
  | columnNotFound (column : String) (source? : Option TableAlias)
  /-- No source in scope provides this column. -/
  | inaccessibleColumn (column : String) (table : TableAlias) (inScope : List TableAlias)
  /-- A source selects no column. -/
  | noColumns (source? : Option TableAlias)
  /-- A join does not equate a column outside the joined source with a column inside it. -/
  | invalidJoinColumns (outer inner : String) (source? : Option TableAlias)
deriving DecidableEq

namespace TreeError

/-- The name of a source in a message. -/
def sourceText : Option TableAlias → String
  | some a => a.text
  | none => "(unaliased)"

/-- The names of the sources in scope in a message. -/
def scopeText : List TableAlias → String
  | [] => "none"
  | aliases => String.intercalate ", " (aliases.map TableAlias.text)

/-- The wording of an error. -/
def message : TreeError → String
  | columnNotFound column source? =>
    "Column '" ++ column ++ "' not found in table source " ++ sourceText source? ++ "."
  | inaccessibleColumn column table inScope =>
    "Column '" ++ column ++ "' of table " ++ table.text
      ++ " is not accessible from this scope. Tables in scope: " ++ scopeText inScope ++ "."
  | noColumns source? =>
    "Derived table " ++ sourceText source? ++ " must select at least one column."
  | invalidJoinColumns outer inner source? =>
    "Join on " ++ sourceText source? ++ " must equate a column outside it ('" ++ outer
      ++ "') with a column inside it ('" ++ inner ++ "')."

end TreeError

end ResourceQuery.Sql
