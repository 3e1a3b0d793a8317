import ResourceQuery.Schema.Basic

/-!
# Looking up tables, columns and foreign keys

## Main Definitions

- `Schema.resourceType`, `Schema.relationship`: the parts of a schema by name.
- `Schema.foreignKeyOf`: the foreign key that a relationship follows.
- `Schema.columnFields`: the columns of a table with the fields that they back.
- `LookupError`: why a lookup has no answer.
-/

namespace ResourceQuery

/-- Why the schema has no answer. -/
inductive LookupError where
  | resourceTypeNotFound (resourceType : String)
  | relationshipNotFound (resourceType relationship : String)
  | foreignKeyColumnNotFound (column table : String)
deriving DecidableEq

/-- The wording of a failed lookup. -/
def LookupError.message : LookupError → String
  | resourceTypeNotFound resourceType => "Resource type '" ++ resourceType ++ "' not found."
  | relationshipNotFound resourceType relationship =>
    "Relationship '" ++ relationship ++ "' not found on resource type '" ++ resourceType ++ "'."
  | foreignKeyColumnNotFound column table =>
    "Foreign key column '" ++ column ++ "' not found in table '" ++ table ++ "'."

/-- A foreign key as the schema resolves it. -/
structure ForeignKey where
  /-- The side of the relationship whose table has the column. -/
  ownedBy : Side
  column : String
  nullable : Bool
deriving DecidableEq, Inhabited

/-- The part of a resource that a column backs. -/
inductive ResourceField where
  | id
  | ofAttribute (name : String)
  /-- A foreign key, by the resource type that declares the relationship and its name. -/
  | ofRelationship (resourceType name : String)
deriving DecidableEq

namespace ResourceField

/-- Is this the foreign key of a relationship. -/
def isRelationship : ResourceField → Bool
  | ofRelationship .. => true
  | _ => false

end ResourceField

namespace Schema

/-! ### Names -/

/-- The resource type with a name. -/
def resourceType (s : Schema) (name : String) : Except LookupError ResourceType :=
  match s.resourceTypes.get? name with
  | some info => .ok info
  | none => .error (.resourceTypeNotFound name)

/-- The relationship with a name, declared by a resource type. -/
def relationship (s : Schema) (resourceType name : String) : Except LookupError Relationship := do
  let info ← s.resourceType resourceType
  match info.relationships.get? name with
  | some relationship => .ok relationship
  | none => .error (.relationshipNotFound resourceType name)

/-- The foreign key that a relationship follows.  It has to be a column of the owning side. -/
def foreignKeyOf (s : Schema) (resourceType name : String) : Except LookupError ForeignKey := do
  let left ← s.resourceType resourceType
  let relationship ← s.relationship resourceType name
  let owner ← match relationship.foreignKey.ownedBy with
    | .left => pure left
    | .right => s.resourceType relationship.target
  match owner.columns.get? relationship.foreignKey.column with
  | some column =>
    .ok ⟨relationship.foreignKey.ownedBy, relationship.foreignKey.column, column.nullable⟩
  | none => .error (.foreignKeyColumnNotFound relationship.foreignKey.column owner.tableName)

/-! ### Columns -/

/-- The first attribute that a column backs. -/
def attributeOfColumn? (info : ResourceType) (column : String) : Option String :=
  (info.attributes.entries.find? (fun a => a.2.column? = some column)).map Prod.fst

/-- The first relationship of the resource type itself whose foreign key is a column of its
table. -/
def ownRelationshipOfColumn? (info : ResourceType) (column : String) : Option String :=
  (info.relationships.entries.find? (fun r =>
    r.2.foreignKey.ownedBy = .left && r.2.foreignKey.column = column)).map Prod.fst

/-- Every relationship of the schema with the resource type that declares it, in order of their
names. -/
def allRelationships (s : Schema) : List (String × String × Relationship) :=
  s.resourceTypes.entries.flatMap (fun t =>
    t.2.relationships.entries.map (fun r => (t.1, r.1, r.2)))

/-- The first relationship to a resource type whose foreign key is a column of the target's
table. -/
def inverseRelationshipOfColumn? (s : Schema) (resourceType column : String) :
    Option (String × String) :=
  (s.allRelationships.find? (fun r =>
    r.2.2.target = resourceType && r.2.2.foreignKey.ownedBy = .right
      && r.2.2.foreignKey.column = column)).map (fun r => (r.1, r.2.1))

/-- The field that a column other than the identifier backs: an attribute before a relationship,
and a relationship of the resource type itself before one that leads to it. -/
def fieldOfColumn? (s : Schema) (resourceType : String) (info : ResourceType) (column : String) :
    Option ResourceField :=
  match attributeOfColumn? info column with
  | some name => some (.ofAttribute name)
  | none =>
    match ownRelationshipOfColumn? info column with
    | some name => some (.ofRelationship resourceType name)
    | none =>
      (s.inverseRelationshipOfColumn? resourceType column).map (fun r => .ofRelationship r.1 r.2)

/-- The columns of a table with the fields that they back: the identifier first, the others in
ascending order of their names. -/
def columnFields (s : Schema) (resourceType : String) :
    Except LookupError (List (String × Option ResourceField)) := do
  let info ← s.resourceType resourceType
  let others := info.columns.keys.filter (fun column => column ≠ info.idColumn)
  return (info.idColumn, some .id)
    :: others.map (fun column => (column, s.fieldOfColumn? resourceType info column))

end Schema

end ResourceQuery
