import ResourceQuery.Dict
import ResourceQuery.Schema.ScalarType

/-!
# Schemas

A schema describes a graph of resources and the tables that store them: which column backs each
attribute, and which foreign key each relationship follows.

## Main Definitions

- `Schema`: resource types and enumerations by name.
- `ResourceType`: one kind of resource and its table.
- `Relationship`: a link from one resource type to another.
-/

namespace ResourceQuery

/-- A column of a table. -/
structure ColumnInfo where
  type : ScalarType
  nullable : Bool
deriving DecidableEq, Inhabited

/-- How many resources a relationship leads to. -/
inductive Cardinality where
  | one
  | many
deriving DecidableEq, Inhabited

/-- An end of a relationship: the left one declares it, the right one is its target. -/
inductive Side where
  | left
  | right
deriving DecidableEq, Inhabited

/-- Where the foreign key of a relationship is stored. -/
structure KeyLocation where
  ownedBy : Side
  /-- The column in the table of the owning side. -/
  column : String
deriving DecidableEq, Inhabited

/-- A link from one resource type to another. -/
structure Relationship where
  target : String
  cardinality : Cardinality
  foreignKey : KeyLocation
  /-- The relationship of the target that leads back. -/
  inverse? : Option String
deriving DecidableEq, Inhabited

namespace Relationship

/-- Does the relationship lead to at most one resource. -/
def isToOne (r : Relationship) : Bool :=
  r.cardinality = .one

/-- Does the relationship lead to any number of resources. -/
def isToMany (r : Relationship) : Bool :=
  r.cardinality = .many

end Relationship

/-- A value that each resource of a type has. -/
structure Attribute where
  /-- The column that stores the value.  Calculated attributes have none. -/
  column? : Option String
  /-- The enumeration whose member names stand for the stored values. -/
  enumType? : Option String
deriving DecidableEq, Inhabited

/-- One kind of resource and the table that stores it. -/
structure ResourceType where
  tableName : String
  idColumn : String
  columns : Dict ColumnInfo
  attributes : Dict Attribute
  relationships : Dict Relationship
deriving DecidableEq, Inhabited

/-- The members of an enumeration with the integers stored for them. -/
abbrev EnumType := Dict Int64

/-- Resource types and enumerations by name. -/
structure Schema where
  resourceTypes : Dict ResourceType
  enumTypes : Dict EnumType
deriving DecidableEq, Inhabited

/-- The schema without resource types. -/
def Schema.empty : Schema :=
  ⟨∅, ∅⟩

end ResourceQuery
