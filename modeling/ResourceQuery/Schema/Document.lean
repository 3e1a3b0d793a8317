import ResourceQuery.Json.Reading
import ResourceQuery.Schema.Basic

/-!
# Schemas as documents

Schemas written as JSON, and read back.  All members are written, also those with a default.
Members that say nothing about a schema may hold anything.

## Main Definitions

- `Schema.toJson`, `Schema.ofReading?`: a schema as a document and back.
-/

namespace ResourceQuery

open Json (Reading)

namespace ScalarType

/-- A type is written by its name. -/
def toJson (t : ScalarType) : Json :=
  .string t.name

/-- The type that a name stands for. -/
def ofJson? (j : Json) : Option ScalarType := do
  ofName? (← j.word?)

end ScalarType

namespace ColumnInfo

/-- Whether a column may hold null is written as a word. -/
def nullableToJson (nullable : Bool) : Json :=
  .string (if nullable then "nullable" else "nonNullable")

/-- The word that says whether a column may hold null. -/
def nullableOfJson? (j : Json) : Option Bool := do
  match ← j.word? with
  | "nullable" => some true
  | "nonNullable" => some false
  | _ => none

/-- A column as a document. -/
def toJson (c : ColumnInfo) : Json :=
  .object [("type", c.type.toJson), ("nullable", nullableToJson c.nullable)]

/-- The column of a document.  Columns may hold null unless the document says otherwise. -/
def ofReading? (r : Reading) : Option ColumnInfo := do
  let members ← r.members?
  let type ← Reading.required? members "type" ScalarType.ofJson?
  let nullable ← Reading.defaulted? members "nullable" true nullableOfJson?
  return { type, nullable }

end ColumnInfo

namespace Cardinality

/-- A cardinality is written as a word. -/
def toJson : Cardinality → Json
  | one => .string "one"
  | many => .string "many"

/-- The cardinality of a word. -/
def ofJson? (j : Json) : Option Cardinality := do
  match ← j.word? with
  | "one" => some one
  | "many" => some many
  | _ => none

end Cardinality

namespace Side

/-- The word for a side. -/
def name : Side → String
  | left => "left"
  | right => "right"

/-- A side is written as a word. -/
def toJson (side : Side) : Json :=
  .string side.name

/-- The side of a word. -/
def ofJson? (j : Json) : Option Side := do
  match ← j.word? with
  | "left" => some left
  | "right" => some right
  | _ => none

end Side

namespace KeyLocation

/-- The location of a foreign key as a document. -/
def toJson (k : KeyLocation) : Json :=
  .object [("ownedBy", k.ownedBy.toJson), ("column", .string k.column)]

/-- The location of a foreign key in a document. -/
def ofReading? (r : Reading) : Option KeyLocation := do
  let members ← r.members?
  let ownedBy ← Reading.required? members "ownedBy" Side.ofJson?
  let column ← Reading.required? members "column" Json.string?
  return { ownedBy, column }

end KeyLocation

namespace Relationship

/-- A relationship as a document. -/
def toJson (r : Relationship) : Json :=
  .object [("target", .string r.target), ("cardinality", r.cardinality.toJson),
    ("foreignKey", r.foreignKey.toJson), ("inverse", Json.ofOption .string r.inverse?)]

/-- The relationship of a document. -/
def ofReading? (r : Reading) : Option Relationship := do
  let members ← r.members?
  let target ← Reading.required? members "target" Json.string?
  let cardinality ← Reading.required? members "cardinality" Cardinality.ofJson?
  let foreignKey ← Reading.requiredPart? members "foreignKey" KeyLocation.ofReading?
  let inverse? ← Reading.optional? members "inverse" Json.string?
  return { target, cardinality, foreignKey, inverse? }

end Relationship

namespace Attribute

/-- An attribute as a document. -/
def toJson (a : Attribute) : Json :=
  .object [("column", Json.ofOption .string a.column?),
    ("enumType", Json.ofOption .string a.enumType?)]

/-- The attribute of a document. -/
def ofReading? (r : Reading) : Option Attribute := do
  let members ← r.members?
  let column? ← Reading.optional? members "column" Json.string?
  let enumType? ← Reading.optional? members "enumType" Json.string?
  return { column?, enumType? }

end Attribute

namespace ResourceType

/-- The identifier column of a resource type that does not name one. -/
def defaultIdColumn : String := "Id"

/-- A resource type as a document. -/
def toJson (t : ResourceType) : Json :=
  .object [("tableName", .string t.tableName), ("idColumn", .string t.idColumn),
    ("columns", Json.ofDict ColumnInfo.toJson t.columns),
    ("attributes", Json.ofDict Attribute.toJson t.attributes),
    ("relationships", Json.ofDict Relationship.toJson t.relationships)]

/-- The resource type of a document. -/
def ofReading? (r : Reading) : Option ResourceType := do
  let members ← r.members?
  let tableName ← Reading.required? members "tableName" Json.string?
  let idColumn ← Reading.defaulted? members "idColumn" defaultIdColumn Json.string?
  let columns ← Reading.requiredPart? members "columns" (Reading.dict? ColumnInfo.ofReading?)
  let attributes ← Reading.defaultedPart? members "attributes" ∅
    (Reading.dict? Attribute.ofReading?)
  let relationships ← Reading.defaultedPart? members "relationships" ∅
    (Reading.dict? Relationship.ofReading?)
  return { tableName, idColumn, columns, attributes, relationships }

end ResourceType

namespace Schema

/-- The members of an enumeration as a document. -/
def enumTypeToJson (e : EnumType) : Json :=
  Json.ofDict Json.ofInt64 e

/-- Enumerations as a document. -/
def enumTypesToJson (e : Dict EnumType) : Json :=
  Json.ofDict enumTypeToJson e

/-- The enumerations of a document. -/
def enumTypesOfJson? (j : Json) : Option (Dict EnumType) :=
  Json.dict? (Json.dict? Json.int64?) j

/-- A schema as a document. -/
def toJson (s : Schema) : Json :=
  .object [("resourceTypes", Json.ofDict ResourceType.toJson s.resourceTypes),
    ("enumTypes", enumTypesToJson s.enumTypes)]

/-- The schema of a document. -/
def ofReading? (r : Reading) : Option Schema := do
  let members ← r.members?
  let resourceTypes ← Reading.requiredPart? members "resourceTypes"
    (Reading.dict? ResourceType.ofReading?)
  let enumTypes ← Reading.defaulted? members "enumTypes" ∅ enumTypesOfJson?
  return { resourceTypes, enumTypes }

end Schema

end ResourceQuery
