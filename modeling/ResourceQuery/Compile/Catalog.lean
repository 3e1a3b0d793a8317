import ResourceQuery.Compile.Error
import ResourceQuery.Sql.Tree

/-!
# The schema as the compiler sees it

## Main Definitions

- `Schema.field`: the column behind a field of a resource type.
- `Schema.table`: the table of a resource type, under an alias.
- `Schema.enumType`: the members of an enumeration.
-/

namespace ResourceQuery

/-- The column behind a field. -/
structure FieldColumn where
  column : String
  type : ScalarType
  enumType? : Option String
deriving DecidableEq

namespace Schema

/-- The field that holds the identifier of every resource. -/
def idField : String := "id"

/-- The members of an enumeration. -/
def enumType (s : Schema) (name : String) : Except CompileError EnumType :=
  match s.enumTypes.get? name with
  | some members => .ok members
  | none => .error (.enumTypeNotFound name)

/-- The name of the column behind a field, and the enumeration whose members it stores. -/
def fieldSource (resourceType : String) (info : ResourceType) (field : String) :
    Except CompileError (String × Option String) :=
  if field = idField then .ok (info.idColumn, none)
  else
    match info.attributes.get? field with
    | none => .error (.attributeNotFound resourceType field)
    | some info =>
      match info.column? with
      | none => .error (.fieldUnavailable resourceType field)
      | some column => .ok (column, info.enumType?)

/-- The column behind a field.  Calculated attributes have none. -/
def field (s : Schema) (resourceType field : String) : Except CompileError FieldColumn := do
  let info ← CompileError.ofLookup (s.resourceType resourceType)
  let (column, enumType?) ← fieldSource resourceType info field
  match info.columns.get? column with
  | some columnInfo => return { column, type := columnInfo.type, enumType? }
  | none => throw (.fieldUnavailable resourceType field)

/-- Does a column refer to another resource. -/
def isForeignKey (field? : Option ResourceField) : Bool :=
  match field? with
  | some field => field.isRelationship
  | none => false

/-- The table of a resource type, under an alias.  Columns that back a relationship are foreign
keys; all others store values, whether a field is mapped to them or not. -/
def table (s : Schema) (resourceType : String) (a : Sql.TableAlias) :
    Except LookupError Sql.Table := do
  let fields ← s.columnFields resourceType
  let info ← s.resourceType resourceType
  return {
    resourceType
    name := info.tableName
    tableAlias := a
    scalars := (fields.filter (fun c => !isForeignKey c.2)).map Prod.fst
    foreignKeys := (fields.filter (fun c => isForeignKey c.2)).map Prod.fst }

end Schema

end ResourceQuery
