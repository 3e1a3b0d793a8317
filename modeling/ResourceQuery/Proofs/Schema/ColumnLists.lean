import ResourceQuery.Proofs.Schema.Columns

/-!
# Every column once

The table of a resource type lists the identifier and every declared column exactly once: among the
columns that store values, or among the foreign keys.  One column can be the identifier, back
attributes and be the key of relationships at the same time, and relationships of any resource type
count.  A value comes before a key, so a foreign key is a declared column that is nothing but the
key of a relationship.

## Main Definitions

- `Side.resourceType`: the resource type at an end of a relationship.
- `ResourceType.StoresValue`, `Schema.StoresKey`: what a column is used for.
- `Schema.ListsOnce`: the two lists of a table divide the columns of a resource type.

## Main Statements

- `Schema.isForeignKey_fieldOfColumn?_iff`: the columns that are taken for foreign keys.
- `Schema.columns_listed_once`: every table lists each column once, and the key of every
  relationship that can be followed is found in the table of its owner.
-/

namespace ResourceQuery

open Sql (Table TableAlias)

/-! ### The use of a column -/

/-- The resource type at an end of a relationship. -/
def Side.resourceType (declaring target : String) : Side → String
  | left => declaring
  | right => target

/-- **A column stores a value** of the resource itself: it is the identifier or backs an
attribute. -/
def ResourceType.StoresValue (info : ResourceType) (column : String) : Prop :=
  column = info.idColumn
    ∨ ∃ name found, info.attributes.get? name = some found ∧ found.column? = some column

instance (info : ResourceType) (column : String) : Decidable (info.StoresValue column) :=
  decidable_of_iff (column = info.idColumn
      ∨ ∃ entry ∈ info.attributes.entries, entry.2.column? = some column)
    (by simp only [ResourceType.StoresValue, Prod.exists, Dict.mem_entries_iff])

/-- **A column stores a key**: some resource type declares a relationship whose foreign key is this
column of the owning side's table. -/
def Schema.StoresKey (schema : Schema) (resourceType column : String) : Prop :=
  ∃ declaring name relationship, schema.relationship declaring name = .ok relationship
    ∧ relationship.foreignKey.ownedBy.resourceType declaring relationship.target = resourceType
    ∧ relationship.foreignKey.column = column

/-- **A table lists the columns of a resource type once**: its two lists have the identifier and
the declared columns in them and nothing else, no column twice, and no column in both.  The
identifier comes first, the columns after it ascend, and so do the foreign keys.  A foreign key is a
declared column that stores a key and no value. -/
structure Schema.ListsOnce (schema : Schema) (info : ResourceType) (t : Table) : Prop where
  named : t.name = info.tableName
  complete : ∀ column, column ∈ t.scalars ∨ column ∈ t.foreignKeys
    ↔ column = info.idColumn ∨ column ∈ info.columns.keys
  disjoint : ∀ column ∈ t.scalars, column ∉ t.foreignKeys
  scalarsOnce : t.scalars.Nodup
  foreignKeysOnce : t.foreignKeys.Nodup
  scalarsAscend : ∃ rest, t.scalars = info.idColumn :: rest ∧ rest.Pairwise (· < ·)
  foreignKeysAscend : t.foreignKeys.Pairwise (· < ·)
  divided : ∀ column, column ∈ t.foreignKeys
    ↔ column ∈ info.columns.keys ∧ ¬ info.StoresValue column
      ∧ schema.StoresKey t.resourceType column

namespace ResourceType

variable {info : ResourceType} {column : String}

theorem not_storesValue_iff :
    ¬ info.StoresValue column
      ↔ column ≠ info.idColumn ∧ Schema.attributeOfColumn? info column = none := by
  rw [Schema.attributeOfColumn?_eq_none, StoresValue, not_or]
  simp only [not_exists, not_and, ne_eq]

/-- The declared columns other than the identifier. -/
def otherColumns (info : ResourceType) : List String :=
  info.columns.keys.filter (· ≠ info.idColumn)

theorem mem_otherColumns :
    column ∈ info.otherColumns ↔ column ∈ info.columns.keys ∧ column ≠ info.idColumn := by
  simp [otherColumns]

theorem otherColumns_ascending (info : ResourceType) : info.otherColumns.Pairwise (· < ·) :=
  info.columns.keys_ascending.filter _

end ResourceType

namespace Schema

variable {schema : Schema} {resourceType column : String} {info : ResourceType}

/-! ### Columns taken for foreign keys -/

theorem ownRelationshipOfColumn?_isSome :
    (ownRelationshipOfColumn? info column).isSome = true
      ↔ ∃ name relationship, info.relationships.get? name = some relationship
        ∧ relationship.foreignKey.ownedBy = .left ∧ relationship.foreignKey.column = column := by
  unfold ownRelationshipOfColumn?
  rw [Option.isSome_map, List.find?_isSome]
  simp only [Prod.exists, Dict.mem_entries_iff, Bool.and_eq_true, decide_eq_true_eq]

theorem inverseRelationshipOfColumn?_isSome :
    (schema.inverseRelationshipOfColumn? resourceType column).isSome = true
      ↔ ∃ declaring name relationship, schema.relationship declaring name = .ok relationship
        ∧ relationship.target = resourceType
        ∧ relationship.foreignKey.ownedBy = .right ∧ relationship.foreignKey.column = column := by
  constructor
  · intro found
    obtain ⟨⟨declaring, name⟩, first⟩ := Option.isSome_iff_exists.mp found
    obtain ⟨left, relationship, known, stored, leads, place⟩ := inverse_of_column first
    have declared := relationship_eq_ok_iff.mpr ⟨left, known, stored⟩
    exact ⟨declaring, name, relationship, declared, leads, by rw [place], by rw [place]⟩
  · rintro ⟨declaring, name, relationship, declared, leads, owned, place⟩
    unfold inverseRelationshipOfColumn?
    rw [Option.isSome_map, List.find?_isSome]
    exact ⟨_, mem_allRelationships declared, by simp [leads, owned, place]⟩

/-- The keys in a table are those of the resource type's own relationships that it stores itself,
and of relationships that lead to it and are stored by their targets. -/
theorem storesKey_iff (known : schema.resourceType resourceType = .ok info) :
    schema.StoresKey resourceType column
      ↔ (ownRelationshipOfColumn? info column).isSome = true
        ∨ (schema.inverseRelationshipOfColumn? resourceType column).isSome = true := by
  rw [ownRelationshipOfColumn?_isSome, inverseRelationshipOfColumn?_isSome]
  constructor
  · rintro ⟨declaring, name, relationship, declared, owner, place⟩
    cases owned : relationship.foreignKey.ownedBy with
    | left =>
      rw [owned] at owner
      cases owner
      obtain ⟨left, known', stored⟩ := relationship_eq_ok_iff.mp declared
      cases known.symm.trans known'
      exact .inl ⟨name, relationship, stored, owned, place⟩
    | right =>
      rw [owned] at owner
      exact .inr ⟨declaring, name, relationship, declared, owner, owned, place⟩
  · rintro (⟨name, relationship, stored, owned, place⟩
      | ⟨declaring, name, relationship, declared, leads, owned, place⟩)
    · have declared := relationship_eq_ok_iff.mpr ⟨info, known, stored⟩
      exact ⟨resourceType, name, relationship, declared, by rw [owned]; rfl, place⟩
    · exact ⟨declaring, name, relationship, declared, by rw [owned]; exact leads, place⟩

/-- **The columns that are taken for foreign keys**: those that store a key and back no
attribute. -/
theorem isForeignKey_fieldOfColumn?_iff (known : schema.resourceType resourceType = .ok info) :
    isForeignKey (schema.fieldOfColumn? resourceType info column) = true
      ↔ attributeOfColumn? info column = none ∧ schema.StoresKey resourceType column := by
  rw [storesKey_iff known]
  unfold fieldOfColumn?
  cases attributeOfColumn? info column with
  | some name => simp [isForeignKey, ResourceField.isRelationship]
  | none =>
    cases ownRelationshipOfColumn? info column with
    | some name => simp [isForeignKey, ResourceField.isRelationship]
    | none =>
      cases schema.inverseRelationshipOfColumn? resourceType column with
      | some found => simp [isForeignKey, ResourceField.isRelationship]
      | none => simp [isForeignKey]

/-! ### The lists of a table -/

/-- The table of a known resource type, with its lists written out. -/
theorem table_of_known (known : schema.resourceType resourceType = .ok info) (a : TableAlias) :
    schema.table resourceType a = .ok {
      resourceType
      name := info.tableName
      tableAlias := a
      scalars := info.idColumn :: info.otherColumns.filter (fun column =>
        !isForeignKey (schema.fieldOfColumn? resourceType info column))
      foreignKeys := info.otherColumns.filter (fun column =>
        isForeignKey (schema.fieldOfColumn? resourceType info column)) } := by
  unfold Schema.table columnFields
  rw [known]
  simp [bind, Except.bind, pure, Except.pure, isForeignKey, ResourceField.isRelationship,
    List.filter_map, Function.comp_def, ResourceType.otherColumns]

/-- The table of a known resource type lists its columns once. -/
theorem listsOnce_of_table {a : TableAlias} {t : Table}
    (known : schema.resourceType resourceType = .ok info)
    (made : schema.table resourceType a = .ok t) : schema.ListsOnce info t := by
  obtain ⟨-, -, _, stores⟩ := stores_of_table made
  have distinct := stores.distinct
  rw [Table.map_name_columns, List.nodup_append] at distinct
  obtain ⟨scalarsOnce, foreignKeysOnce, apart⟩ := distinct
  rw [table_of_known known a] at made
  cases made
  have ascending := info.otherColumns_ascending
  constructor
  case named => rfl
  case complete =>
    intro column
    simp only [List.mem_cons, List.mem_filter, ResourceType.mem_otherColumns]
    by_cases id : column = info.idColumn
    · simp [id]
    · cases isForeignKey (schema.fieldOfColumn? resourceType info column) <;> simp [id]
  case disjoint => exact fun column scalar key => apart column scalar column key rfl
  case scalarsOnce => exact scalarsOnce
  case foreignKeysOnce => exact foreignKeysOnce
  case scalarsAscend => exact ⟨_, rfl, ascending.filter _⟩
  case foreignKeysAscend => exact ascending.filter _
  case divided =>
    intro column
    rw [List.mem_filter, isForeignKey_fieldOfColumn?_iff known, ResourceType.mem_otherColumns,
      ResourceType.not_storesValue_iff]
    simp only [and_assoc]

/-- The table of a known resource type starts with its identifier. -/
theorem ListsOnce.idColumn_eq {t : Table} (lists : schema.ListsOnce info t) :
    t.idColumn = .ok (t.scalar info.idColumn) := by
  obtain ⟨rest, first, -⟩ := lists.scalarsAscend
  simp [Table.idColumn, first]

/-- A declared column that stores a key is found, among the columns that store values if it stores
one too. -/
theorem ListsOnce.findColumn?_of_storesKey {t : Table} (lists : schema.ListsOnce info t)
    (declared : column ∈ info.columns.keys) (stores : schema.StoresKey t.resourceType column) :
    t.findColumn? column
      = some (if info.StoresValue column then t.scalar column else t.foreignKey column) := by
  unfold Table.findColumn?
  by_cases value : info.StoresValue column
  · have notKey : column ∉ t.foreignKeys := fun mem => ((lists.divided column).mp mem).2.1 value
    have scalar : column ∈ t.scalars :=
      ((lists.complete column).mpr (.inr declared)).resolve_right notKey
    simp [scalar, value]
  · have key : column ∈ t.foreignKeys := (lists.divided column).mpr ⟨declared, value, stores⟩
    have notScalar : column ∉ t.scalars := fun mem => lists.disjoint column mem key
    simp [notScalar, key, value]

/-- A resolved foreign key is a declared column of the resource type at the owning end, and the key
of a relationship there. -/
theorem storesKey_of_foreignKeyOf {declaring name : String} {key : ForeignKey}
    (resolved : schema.foreignKeyOf declaring name = .ok key) :
    ∃ relationship owner, schema.relationship declaring name = .ok relationship
      ∧ key.ownedBy = relationship.foreignKey.ownedBy
      ∧ key.column = relationship.foreignKey.column
      ∧ schema.resourceType (key.ownedBy.resourceType declaring relationship.target) = .ok owner
      ∧ key.column ∈ owner.columns.keys
      ∧ schema.StoresKey (key.ownedBy.resourceType declaring relationship.target) key.column := by
  obtain ⟨left, relationship, known, declared, side, place, owner, column, listed, -, stored⟩ :=
    foreignKeyOf_ok resolved
  refine ⟨relationship, owner, declared, side, place, ?_, Dict.mem_keys_of_get? listed,
    declaring, name, relationship, declared, by rw [side], place.symm⟩
  cases owned : key.ownedBy with
  | left =>
    simp only [owned] at stored
    subst stored
    exact known
  | right =>
    simp only [owned] at stored
    exact stored

/-- **Tables list every column once.**  For a known resource type there is always a table, and it
lists the columns once with the identifier in front.  The foreign key of a relationship that can be
followed is found in the table of the side that owns it: as a foreign key, unless the column stores
a value of the owner as well. -/
theorem columns_listed_once (schema : Schema) (a : TableAlias) :
    (∀ resourceType info, schema.resourceType resourceType = .ok info →
      ∃ t, schema.table resourceType a = .ok t ∧ t.resourceType = resourceType ∧ t.tableAlias = a
        ∧ schema.ListsOnce info t ∧ t.idColumn = .ok (t.scalar info.idColumn))
      ∧ ∀ declaring name key, schema.foreignKeyOf declaring name = .ok key →
        ∃ relationship owner t, schema.relationship declaring name = .ok relationship
          ∧ key.ownedBy = relationship.foreignKey.ownedBy
          ∧ key.column = relationship.foreignKey.column
          ∧ schema.resourceType (key.ownedBy.resourceType declaring relationship.target) = .ok owner
          ∧ schema.table (key.ownedBy.resourceType declaring relationship.target) a = .ok t
          ∧ t.findColumn? key.column = some (if owner.StoresValue key.column
            then t.scalar key.column else t.foreignKey key.column) := by
  constructor
  · intro resourceType info known
    have made := table_of_known known a
    have lists := listsOnce_of_table known made
    exact ⟨_, made, rfl, rfl, lists, lists.idColumn_eq⟩
  · intro declaring name key resolved
    obtain ⟨relationship, owner, declared, side, place, known, listed, stores⟩ :=
      storesKey_of_foreignKeyOf resolved
    have made := table_of_known known a
    have lists := listsOnce_of_table known made
    exact ⟨relationship, owner, _, declared, side, place, known, made,
      lists.findColumn?_of_storesKey listed stores⟩

namespace Staff

/-- People, whose identifier is not declared.  The boss of a person is an attribute as well as a
relationship, and nothing is known of the spare column. -/
def people : ResourceType where
  tableName := "People"
  idColumn := "Key"
  columns := Dict.ofList [
    ("Boss", ⟨.bigint, true⟩),
    ("Mentor", ⟨.bigint, true⟩),
    ("Profile", ⟨.bigint, false⟩),
    ("Spare", ⟨.text, true⟩)]
  attributes := Dict.ofList [("bossKey", ⟨some "Boss", none⟩)]
  relationships := Dict.ofList [
    ("boss", ⟨"people", .one, ⟨.left, "Boss"⟩, none⟩),
    ("mentor", ⟨"people", .one, ⟨.left, "Mentor"⟩, none⟩)]

/-- Profiles, which alone declare the relationship to the person they belong to. -/
def profiles : ResourceType where
  tableName := "Profiles"
  idColumn := "Id"
  columns := Dict.ofList [("Id", ⟨.bigint, false⟩)]
  attributes := ∅
  relationships := Dict.ofList [("person", ⟨"people", .one, ⟨.right, "Profile"⟩, none⟩)]

/-- The table of people. -/
def peopleTable : Table :=
  ⟨"people", "People", ⟨1⟩, ["Key", "Boss", "Spare"], ["Mentor", "Profile"]⟩

end Staff

/-- People and their profiles. -/
def staff : Schema where
  resourceTypes := Dict.ofList [("people", Staff.people), ("profiles", Staff.profiles)]
  enumTypes := ∅

/-- The boss of a person is listed as a value, and the profile as a foreign key although people do
not declare it. -/
theorem columns_listed_once_staff :
    staff.resourceType "people" = .ok Staff.people
      ∧ staff.foreignKeyOf "people" "boss" = .ok ⟨.left, "Boss", true⟩
      ∧ staff.foreignKeyOf "profiles" "person" = .ok ⟨.right, "Profile", false⟩
      ∧ staff.table "people" ⟨1⟩ = .ok Staff.peopleTable
      ∧ staff.ListsOnce Staff.people Staff.peopleTable
      ∧ Staff.peopleTable.idColumn = .ok (Staff.peopleTable.scalar "Key")
      ∧ Staff.peopleTable.findColumn? "Boss" = some (Staff.peopleTable.scalar "Boss")
      ∧ Staff.peopleTable.findColumn? "Profile"
        = some (Staff.peopleTable.foreignKey "Profile") := by
  have known : staff.resourceType "people" = .ok Staff.people := rfl
  have boss : staff.foreignKeyOf "people" "boss" = .ok ⟨.left, "Boss", true⟩ := rfl
  have person : staff.foreignKeyOf "profiles" "person" = .ok ⟨.right, "Profile", false⟩ := rfl
  have made : staff.table "people" ⟨1⟩ = .ok Staff.peopleTable := rfl
  obtain ⟨tables, keys⟩ := columns_listed_once staff ⟨1⟩
  refine ⟨known, boss, person, made, ?_⟩
  obtain ⟨_, made', -, -, lists, first⟩ := tables "people" Staff.people known
  cases made.symm.trans made'
  refine ⟨lists, first, ?_, ?_⟩
  · obtain ⟨relationship, owner, _, -, -, -, known', made', found⟩ := keys "people" "boss" _ boss
    cases known.symm.trans known'
    cases made.symm.trans made'
    exact found
  · obtain ⟨relationship, owner, _, declared, -, -, known', made', found⟩ :=
      keys "profiles" "person" _ person
    cases declared
    cases known.symm.trans known'
    cases made.symm.trans made'
    exact found

end Schema

end ResourceQuery
