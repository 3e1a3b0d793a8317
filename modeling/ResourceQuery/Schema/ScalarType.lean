/-!
# Types of columns

## Main Definitions

- `ScalarType`: the types that a column can have.
- `ScalarType.name`, `ScalarType.ofName?`: their names in the database and back.
-/

namespace ResourceQuery

/-- The type of the values in a column. -/
inductive ScalarType where
  | boolean
  | smallint
  | integer
  | bigint
  | real
  | doublePrecision
  | numeric
  | characterVarying
  | text
  | date
  | timestampWithTimeZone
  | timestampWithoutTimeZone
  | uuid
deriving DecidableEq, Inhabited

namespace ScalarType

/-- All types. -/
def all : List ScalarType :=
  [boolean, smallint, integer, bigint, real, doublePrecision, numeric, characterVarying, text,
   date, timestampWithTimeZone, timestampWithoutTimeZone, uuid]

/-- The name of a type in the database. -/
def name : ScalarType → String
  | boolean => "boolean"
  | smallint => "smallint"
  | integer => "integer"
  | bigint => "bigint"
  | real => "real"
  | doublePrecision => "double precision"
  | numeric => "numeric"
  | characterVarying => "character varying"
  | text => "text"
  | date => "date"
  | timestampWithTimeZone => "timestamp with time zone"
  | timestampWithoutTimeZone => "timestamp without time zone"
  | uuid => "uuid"

/-- The type with a given name. -/
def ofName? (s : String) : Option ScalarType :=
  all.find? (fun t => t.name = s)

/-- Are the values whole numbers. -/
def isIntegral : ScalarType → Bool
  | smallint | integer | bigint => true
  | _ => false

/-- Can the values be matched against a text. -/
def matchesText : ScalarType → Bool
  | characterVarying | text => true
  | _ => false

theorem mem_all (t : ScalarType) : t ∈ all := by
  cases t <;> simp [all]

@[simp] theorem ofName?_name (t : ScalarType) : ofName? t.name = some t := by
  cases t <;> decide

end ScalarType

end ResourceQuery
