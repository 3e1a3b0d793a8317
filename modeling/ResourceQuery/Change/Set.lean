import ResourceQuery.Change.Snapshot
import ResourceQuery.Compile.Constant

/-!
# Changes of a resource

Two snapshots of a resource differ in columns of its own table, and in relationships whose foreign
keys are stored elsewhere.

## Main Definitions

- `ChangeSet`: what changes between two snapshots.
- `ChangeSet.detect`: the changes that a snapshot asks for.
- `ChangeSet.checkRequired`: is no required relationship cleared.
-/

namespace ResourceQuery

/-- A one-to-one relationship, stored in the table of the resource itself, that is set to another
resource. -/
structure OneToOneChange where
  relationship : String
  old? : Option ResourceId
  new : ResourceId
deriving DecidableEq

/-- A to-one relationship, stored in the table of the related resource, that changes. -/
structure ToOneChange where
  relationship : String
  old? : Option ResourceId
  new? : Option ResourceId
deriving DecidableEq

/-- A to-many relationship that changes. -/
structure ToManyChange where
  relationship : String
  old : IdSet
  new : IdSet
deriving DecidableEq

namespace ToManyChange

/-- The resources that are no longer related. -/
def removed (c : ToManyChange) : List ResourceId :=
  c.old.without c.new

/-- The resources that are newly related. -/
def added (c : ToManyChange) : List ResourceId :=
  c.new.without c.old

end ToManyChange

/-- A changed relationship, by the place where it is stored. -/
inductive RelationshipChange where
  /-- In the table of the resource itself, where it may exclude another resource and may have to
  be set. -/
  | own (taken? : Option OneToOneChange) (cleared? : Option String)
  | atRight (change : ToOneChange)
  | toMany (change : ToManyChange)
deriving DecidableEq

/-- What changes about a resource. -/
structure ChangeSet where
  resourceType : String
  /-- There is none if the database is going to assign it. -/
  resourceId? : Option ResourceId
  /-- The changed columns of the resource's own table with their new values, in the order of the
  table. -/
  columns : List (String × Sql.Value)
  oneToOne : List OneToOneChange
  toOneAtRight : List ToOneChange
  toMany : List ToManyChange
  /-- Relationships that are cleared although they may not be. -/
  clearedRequired : List String
deriving DecidableEq

namespace ChangeSet

/-! ### Names -/

/-- Check that each name in a list passes a test. -/
def checkAll (check : String → Except CompileError Unit) : List String → Except CompileError Unit
  | [] => .ok ()
  | name :: rest => do
    check name
    checkAll check rest

/-- An attribute that is written has to exist and to have a column. -/
def checkAttribute (resourceType : String) (info : ResourceType) (name : String) :
    Except CompileError Unit :=
  match info.attributes.get? name with
  | none => .error (.attributeNotFound resourceType name)
  | some found =>
    if found.column?.isNone then .error (.fieldUnavailable resourceType name) else .ok ()

/-- A relationship that is set to one resource has to be a to-one relationship. -/
def checkToOne (schema : Schema) (resourceType name : String) : Except CompileError Unit := do
  let relationship ← CompileError.ofLookup (schema.relationship resourceType name)
  if relationship.isToOne then return () else throw (.expectedToOne resourceType name)

/-- A relationship that is set to several resources has to be a to-many relationship. -/
def checkToMany (schema : Schema) (resourceType name : String) : Except CompileError Unit := do
  let relationship ← CompileError.ofLookup (schema.relationship resourceType name)
  if relationship.isToMany then return () else throw (.expectedToMany resourceType name)

/-- Check all names that a snapshot mentions. -/
def checkNames (schema : Schema) (resourceType : String) (info : ResourceType)
    (after : Snapshot) : Except CompileError Unit := do
  checkAll (checkAttribute resourceType info) after.attributes.keys
  checkAll (checkToOne schema resourceType) after.toOne.keys
  checkAll (checkToMany schema resourceType) after.toMany.keys

/-! ### Columns -/

/-- The old and the new value of a to-one relationship that changes.  A relationship that was not
mentioned before was empty. -/
def changedToOne? (before? : Option Snapshot) (after : Snapshot) (name : String) :
    Option (Option ResourceId × Option ResourceId) := do
  let new ← after.toOne.get? name
  let old := (before?.bind (fun before => before.toOne.get? name)).join
  if old = new then none else some (old, new)

/-- The new value of an attribute that changes.  An attribute that was not mentioned before
changes. -/
def changedAttribute? (before? : Option Snapshot) (after : Snapshot) (name : String) :
    Option Json := do
  let new ← after.attributes.get? name
  match before?.bind (fun before => before.attributes.get? name) with
  | some old => if old.alike new then none else some new
  | none => some new

/-- The value written to the column of an attribute. -/
def attributeValue (schema : Schema) (resourceType : String) (info : ResourceType)
    (column name : String) (new : Json) : Except CompileError Sql.Value :=
  match info.columns.get? column with
  | none => .error (.fieldUnavailable resourceType name)
  | some columnInfo =>
    Constant.toValue schema.enumTypes columnInfo.type
      ((info.attributes.get? name).bind Attribute.enumType?) new

/-- The value written to a foreign key. -/
def keyValue : Option ResourceId → Sql.Value
  | some id => id.toValue
  | none => .null

/-- The new value of a column that changes. -/
def columnValue? (schema : Schema) (resourceType : String) (info : ResourceType)
    (before? : Option Snapshot) (after : Snapshot) (column : String) :
    Option ResourceField → Except CompileError (Option Sql.Value)
  | some .id =>
    return if before?.isNone then after.id?.map ResourceId.toValue else none
  | some (.ofAttribute name) =>
    match changedAttribute? before? after name with
    | none => .ok none
    | some new => some <$> attributeValue schema resourceType info column name new
  | some (.ofRelationship owner name) =>
    return if owner = resourceType
      then (changedToOne? before? after name).map (fun change => keyValue change.2)
      else none
  | none => .ok none

/-- The columns that change, in the order of the table. -/
def changedColumns (schema : Schema) (resourceType : String) (info : ResourceType)
    (before? : Option Snapshot) (after : Snapshot) :
    List (String × Option ResourceField) → Except CompileError (List (String × Sql.Value))
  | [] => .ok []
  | (column, field?) :: rest => do
    let value? ← columnValue? schema resourceType info before? after column field?
    let others ← changedColumns schema resourceType info before? after rest
    return (value?.map (fun value => (column, value))).toList ++ others

/-! ### Relationships -/

/-- Does the inverse of a relationship lead to at most one resource. -/
def inverseIsToOne (schema : Schema) (relationship : Relationship) : Except LookupError Bool :=
  match relationship.inverse? with
  | none => .ok false
  | some inverse => do return (← schema.relationship relationship.target inverse).isToOne

/-- The change of a to-one relationship. -/
def toOneChange (schema : Schema) (resourceType name : String) (relationship : Relationship)
    (old new : Option ResourceId) : Except LookupError RelationshipChange := do
  let key ← schema.foreignKeyOf resourceType name
  match key.ownedBy with
  | .left =>
    let exclusive ← inverseIsToOne schema relationship
    let taken? := if exclusive then new.map (fun id => ⟨name, old, id⟩) else none
    let cleared? := if new.isNone && !key.nullable then some name else none
    return .own taken? cleared?
  | .right => return .atRight ⟨name, old, new⟩

/-- The change of a to-many relationship.  A relationship that was not mentioned before was
empty. -/
def toManyChange? (before? : Option Snapshot) (after : Snapshot) (name : String) :
    Option RelationshipChange := do
  let new ← after.toMany.get? name
  let old := (before?.bind (fun before => before.toMany.get? name)).getD IdSet.empty
  if old = new then none else some (.toMany ⟨name, old, new⟩)

/-- The change of a relationship, if it changes. -/
def relationshipChange? (schema : Schema) (resourceType : String) (before? : Option Snapshot)
    (after : Snapshot) (name : String) (relationship : Relationship) :
    Except LookupError (Option RelationshipChange) :=
  if relationship.isToMany then .ok (toManyChange? before? after name)
  else
    match changedToOne? before? after name with
    | none => .ok none
    | some (old, new) => some <$> toOneChange schema resourceType name relationship old new

/-- The changes of a list of relationships. -/
def relationshipChanges (schema : Schema) (resourceType : String) (before? : Option Snapshot)
    (after : Snapshot) : List (String × Relationship) → Except LookupError (List RelationshipChange)
  | [] => .ok []
  | (name, relationship) :: rest => do
    let change? ← relationshipChange? schema resourceType before? after name relationship
    let others ← relationshipChanges schema resourceType before? after rest
    return change?.toList ++ others

/-! ### Detection -/

/-- The changes that a snapshot asks for, compared with an earlier one.  Without an earlier one the
resource is created. -/
def detect (schema : Schema) (resourceType : String) (before? : Option Snapshot)
    (after : Snapshot) : Except CompileError ChangeSet := do
  let info ← CompileError.ofLookup (schema.resourceType resourceType)
  checkNames schema resourceType info after
  let fields ← CompileError.ofLookup (schema.columnFields resourceType)
  let columns ← changedColumns schema resourceType info before? after fields
  let changes ← CompileError.ofLookup
    (relationshipChanges schema resourceType before? after info.relationships.entries)
  return {
    resourceType
    resourceId? := after.id? <|> before?.bind Snapshot.id?
    columns
    oneToOne := changes.filterMap (fun c => match c with | .own taken? _ => taken? | _ => none)
    toOneAtRight := changes.filterMap (fun c => match c with | .atRight c => some c | _ => none)
    toMany := changes.filterMap (fun c => match c with | .toMany c => some c | _ => none)
    clearedRequired :=
      changes.filterMap (fun c => match c with | .own _ cleared? => cleared? | _ => none) }

/-- No required relationship may be cleared. -/
def checkRequired (c : ChangeSet) : Except CompileError Unit :=
  match c.clearedRequired with
  | [] => .ok ()
  | name :: _ => .error (.requiredRelationshipCleared c.resourceType name)

end ChangeSet

end ResourceQuery
