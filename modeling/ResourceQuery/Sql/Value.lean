import ResourceQuery.Decimal.Layout
import ResourceQuery.Text.Quoted

/-!
# Values of parameters

A statement never contains the constants of a request.  They travel beside its text, as the typed
values of parameters.

## Main Definitions

- `Sql.Value`: the value of a parameter.
- `Sql.CastType`: the types whose values are sent as text.
- `Sql.Value.display`: a value as it is written in messages.
- `Sql.Value.inspect`: a value with its kind, as it is shown below a statement.
-/

namespace ResourceQuery.Sql

/-- A type whose values are sent as text and converted by the database. -/
inductive CastType where
  | date
  | timestamp
  | timestampWithTimeZone
  | uuid
deriving DecidableEq, Inhabited

namespace CastType

/-- The name of the type in the database. -/
def typeName : CastType → String
  | date => "date"
  | timestamp => "timestamp"
  | timestampWithTimeZone => "timestamptz"
  | uuid => "uuid"

/-- The name under which values of the type are shown. -/
def kindName : CastType → String
  | date => "Date"
  | timestamp => "Timestamp"
  | timestampWithTimeZone => "TimestampWithTimeZone"
  | uuid => "Uuid"

end CastType

/-- The value of a parameter. -/
inductive Value where
  | null
  | bool (value : Bool)
  | int (value : Int64)
  | float (value : Binary64)
  | string (value : String)
  /-- Text that the database converts to the given type. -/
  | cast (text : String) (type : CastType)
deriving DecidableEq, Inhabited

namespace Value

/-- The word for a truth value. -/
def boolText (b : Bool) : String :=
  if b then "true" else "false"

/-- In messages numbers never have an exponent, and whole numbers show no fraction. -/
def displayLayout : Decimal.Layout where
  positional := fun _ => true
  marksWhole := false
  signsExponent := false
  tie := .upward

/-- When a value is inspected, numbers from `10 ^ (-4)` up to `10 ^ 16` have no exponent, and whole
numbers show a fraction. -/
def inspectLayout : Decimal.Layout where
  positional := fun leading => -4 ≤ leading && leading < 16
  marksWhole := true
  signsExponent := false
  tie := .upward

/-- A value as it is written in messages. -/
def display : Value → String
  | null => "null"
  | bool b => boolText b
  | int n => intText n.toInt
  | float x => displayLayout.write x
  | string s => "'" ++ s ++ "'"
  | cast s type => "'" ++ s ++ "'::" ++ type.typeName

/-- A value together with its kind, as it is shown below a statement. -/
def inspect : Value → String
  | null => "Null"
  | bool b => "Bool(" ++ boolText b ++ ")"
  | int n => "Int(" ++ intText n.toInt ++ ")"
  | float x => "Float(" ++ inspectLayout.write x ++ ")"
  | string s => "String(" ++ Text.quoted s ++ ")"
  | cast s type => "Cast(" ++ Text.quoted s ++ ", " ++ type.kindName ++ ")"

end Value

/-- A named value that a statement refers to. -/
structure Parameter where
  name : String
  value : Value
deriving DecidableEq, Inhabited

end ResourceQuery.Sql
