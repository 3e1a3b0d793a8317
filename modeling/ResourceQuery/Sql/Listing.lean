import ResourceQuery.Sql.Piece

/-!
# Listings

Statements as they are shown to people: each ends with a semicolon and is followed by the values of
its parameters.

## Main Definitions

- `Sql.Rendered.listing`: a statement with the values of its parameters.
- `Sql.listing`: several statements.
-/

namespace ResourceQuery.Sql

/-- The line that shows the value of a parameter. -/
def listingLine (param : String × Value) : String :=
  "\n-- " ++ param.1 ++ " = " ++ param.2.inspect

/-- A statement, followed by a line for every parameter. -/
def Rendered.listing (r : Rendered) : String :=
  r.text ++ ";" ++ String.join (r.params.map listingLine)

/-- Statements one after another, with an empty line between them. -/
def listing (statements : List Rendered) : String :=
  String.intercalate "\n\n" (statements.map Rendered.listing)

end ResourceQuery.Sql
