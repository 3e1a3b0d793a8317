import ResourceQuery.Compile.Follow
import ResourceQuery.Proofs.Dict

/-!
# Tables as the schema describes them

Whatever a schema says, the table it gives for a resource type has the identifier as its first
column, holds every declared column, and names none twice.  So a column that a lookup has found in
the schema is also found in the table.

## Main Definitions

- `Schema.Stores`: a table is the one in which a resource type is stored.
- `ForeignKey.columnNames`: the columns that are equal in related rows, by name.
- `Schema.destination`: the resource type that a path leads to.

## Main Statements

- `Schema.stores_of_table`: the table of a resource type stores it.
- `Compile.keyColumns_ok`: the key columns of a relationship exist in the tables it connects.
- `Compile.getColumn_of_field`: the column of a field exists in the table of its resource type.
-/

namespace ResourceQuery

open Sql (Table TableAlias Column)

/-! ### Dictionaries -/

namespace Dict

variable {α : Type}

theorem mem_keys_of_get? {d : Dict α} {name : String} {value : α}
    (h : d.get? name = some value) : name ∈ d.keys := by
  obtain ⟨before, after, split, -⟩ := List.lookup_eq_some_iff.mp h
  rw [keys, split]
  simp

theorem keys_ascending (d : Dict α) : d.keys.Pairwise (· < ·) := by
  rw [keys, List.pairwise_map]
  exact d.sorted

theorem keys_nodup (d : Dict α) : d.keys.Nodup := by
  refine d.keys_ascending.imp ?_
  intro a b hlt heq
  rw [heq] at hlt
  exact String.lt_irrefl b hlt

end Dict

/-! ### Names -/

namespace Schema

variable {schema : Schema}

/-- A resource type is one of the entries of a schema. -/
theorem mem_entries_of_resourceType {name : String} {info : ResourceType}
    (h : schema.resourceType name = .ok info) : (name, info) ∈ schema.resourceTypes.entries := by
  unfold Schema.resourceType at h
  split at h
  · rename_i found
    cases h
    exact Dict.mem_entries_iff.mpr found
  · cases h

/-- A relationship is looked up among those that its resource type declares. -/
theorem relationship_eq_ok_iff {resourceType name : String} {relationship : Relationship} :
    schema.relationship resourceType name = .ok relationship
      ↔ ∃ info, schema.resourceType resourceType = .ok info
        ∧ info.relationships.get? name = some relationship := by
  unfold Schema.relationship
  cases schema.resourceType resourceType with
  | error e => simp [bind, Except.bind]
  | ok info =>
    cases stored : info.relationships.get? name with
    | none => simp [bind, Except.bind, stored]
    | some found => simp [bind, Except.bind, stored]

/-- A relationship is one of all relationships. -/
theorem mem_allRelationships {resourceType name : String} {relationship : Relationship}
    (h : schema.relationship resourceType name = .ok relationship) :
    (resourceType, name, relationship) ∈ schema.allRelationships := by
  obtain ⟨info, known, stored⟩ := relationship_eq_ok_iff.mp h
  refine List.mem_flatMap.mpr ⟨_, mem_entries_of_resourceType known, ?_⟩
  exact List.mem_map.mpr ⟨_, Dict.mem_entries_iff.mpr stored, rfl⟩

end Schema

/-! ### Columns of a table -/

namespace Sql.Table

variable {t : Table} {c : Column}

theorem map_name_columns (t : Table) : t.columns.map Column.name = t.scalars ++ t.foreignKeys := by
  simp [columns, scalarColumns, foreignKeyColumns, scalar, foreignKey, Function.comp_def,
    Column.name]

/-- A column of a table is a reference under the table's alias. -/
theorem eq_inTable_of_mem_columns (mem : c ∈ t.columns) :
    ∃ kind, c = .inTable c.name kind (some t.tableAlias) := by
  simp only [columns, scalarColumns, foreignKeyColumns, List.mem_append, List.mem_map] at mem
  rcases mem with ⟨name, -, rfl⟩ | ⟨name, -, rfl⟩
  · exact ⟨.scalar, rfl⟩
  · exact ⟨.foreignKey, rfl⟩

theorem alias?_of_mem_columns (mem : c ∈ t.columns) : c.alias? = some t.tableAlias := by
  obtain ⟨kind, h⟩ := eq_inTable_of_mem_columns mem
  rw [h]
  rfl

theorem getColumn_of_mem {name : String} (mem : name ∈ t.scalars ∨ name ∈ t.foreignKeys) :
    ∃ c ∈ t.columns, t.getColumn name = .ok c ∧ c.name = name := by
  by_cases hscalar : name ∈ t.scalars
  · refine ⟨t.scalar name, ?_, by simp [getColumn, findColumn?, hscalar], rfl⟩
    exact List.mem_append_left _ (List.mem_map_of_mem hscalar)
  · have hkey : name ∈ t.foreignKeys := mem.resolve_left hscalar
    refine ⟨t.foreignKey name, ?_, by simp [getColumn, findColumn?, hscalar, hkey], rfl⟩
    exact List.mem_append_right _ (List.mem_map_of_mem hkey)

end Sql.Table

/-! ### The table of a resource type -/

/-- **A table stores a resource type** as a schema describes it: the identifier comes first, every
declared column is there, and no name occurs twice. -/
structure Schema.Stores (schema : Schema) (info : ResourceType) (t : Table) : Prop where
  described : schema.resourceType t.resourceType = .ok info
  named : t.name = info.tableName
  idFirst : ∃ rest, t.scalars = info.idColumn :: rest
  complete : ∀ name ∈ info.columns.keys, name ∈ t.scalars ∨ name ∈ t.foreignKeys
  distinct : (t.columns.map Column.name).Nodup

/-- The names of the columns that are equal in related rows: the one where the relationship starts,
then the one where it leads to. -/
def ForeignKey.columnNames (key : ForeignKey) (sourceId targetId : String) : String × String :=
  match key.ownedBy with
  | .left => (key.column, targetId)
  | .right => (sourceId, key.column)

namespace Schema

/-- The resource type that a relationship leads to. -/
def targetOf (schema : Schema) (resourceType name : String) : String :=
  match schema.relationship resourceType name with
  | .ok relationship => relationship.target
  | .error _ => resourceType

/-- The resource type that a path leads to. -/
def destination (schema : Schema) (resourceType : String) (path : Path) : String :=
  path.foldl schema.targetOf resourceType

variable {schema : Schema} {info : ResourceType} {t : Table}

theorem map_fst_columnFields {resourceType : String}
    {fields : List (String × Option ResourceField)}
    (h : schema.columnFields resourceType = .ok fields)
    (hinfo : schema.resourceType resourceType = .ok info) :
    fields.map Prod.fst = info.idColumn :: info.columns.keys.filter (· ≠ info.idColumn) := by
  unfold columnFields at h
  rw [hinfo] at h
  cases h
  simp [Function.comp_def]

theorem stores_of_table {resourceType : String} {a : TableAlias}
    (h : schema.table resourceType a = .ok t) :
    t.resourceType = resourceType ∧ t.tableAlias = a ∧ ∃ info, schema.Stores info t := by
  unfold Schema.table at h
  cases hfields : schema.columnFields resourceType with
  | error e =>
    rw [hfields] at h
    cases h
  | ok fields =>
    cases hinfo : schema.resourceType resourceType with
    | error e =>
      rw [hfields, hinfo] at h
      cases h
    | ok info =>
      have names := map_fst_columnFields hfields hinfo
      have nodup : (fields.map Prod.fst).Nodup := by
        rw [names]
        exact List.nodup_cons.mpr ⟨by simp, info.columns.keys_nodup.filter _⟩
      rw [hfields, hinfo] at h
      cases h
      refine ⟨rfl, rfl, info, hinfo, rfl, ?_, ?_, ?_⟩
      · unfold columnFields at hfields
        rw [hinfo] at hfields
        cases hfields
        exact ⟨_, rfl⟩
      · intro name mem
        have listed : name ∈ fields.map Prod.fst := by
          rw [names]
          by_cases hid : name = info.idColumn <;> simp [hid, mem]
        obtain ⟨field, hfield, rfl⟩ := List.mem_map.mp listed
        cases hkey : isForeignKey field.2 with
        | false => exact .inl (List.mem_map_of_mem (List.mem_filter.mpr ⟨hfield, by simp [hkey]⟩))
        | true => exact .inr (List.mem_map_of_mem (List.mem_filter.mpr ⟨hfield, hkey⟩))
      · -- The two kinds of columns are complementary parts of one list without repetitions.
        rw [Sql.Table.map_name_columns]
        have parts := (List.filter_append_perm (fun c => !isForeignKey c.2) fields).map Prod.fst
        simp only [List.map_append, Bool.not_not] at parts
        exact parts.nodup_iff.mpr nodup

/-- The identifier column of a stored table exists. -/
theorem Stores.idColumn_ok (stores : schema.Stores info t) :
    ∃ c ∈ t.columns, t.idColumn = .ok c ∧ c.name = info.idColumn := by
  obtain ⟨rest, hrest⟩ := stores.idFirst
  refine ⟨t.scalar info.idColumn, ?_, by simp [Table.idColumn, hrest], rfl⟩
  exact List.mem_append_left _ (List.mem_map_of_mem (by rw [hrest]; exact List.mem_cons_self))

/-- A declared column exists in the table. -/
theorem Stores.getColumn_ok (stores : schema.Stores info t) {name : String} {column : ColumnInfo}
    (h : info.columns.get? name = some column) :
    ∃ c ∈ t.columns, t.getColumn name = .ok c ∧ c.name = name :=
  Sql.Table.getColumn_of_mem (stores.complete name (Dict.mem_keys_of_get? h))

/-- A resolved foreign key is a declared column of the owning side. -/
theorem foreignKeyOf_ok {resourceType name : String} {key : ForeignKey}
    (h : schema.foreignKeyOf resourceType name = .ok key) :
    ∃ left relationship, schema.resourceType resourceType = .ok left
      ∧ schema.relationship resourceType name = .ok relationship
      ∧ key.ownedBy = relationship.foreignKey.ownedBy
      ∧ key.column = relationship.foreignKey.column
      ∧ ∃ owner column, owner.columns.get? key.column = some column
        ∧ column.nullable = key.nullable
        ∧ match key.ownedBy with
          | .left => owner = left
          | .right => schema.resourceType relationship.target = .ok owner := by
  unfold foreignKeyOf at h
  cases hleft : schema.resourceType resourceType with
  | error e => rw [hleft] at h; cases h
  | ok left =>
    cases hrel : schema.relationship resourceType name with
    | error e => rw [hleft, hrel] at h; cases h
    | ok relationship =>
      rw [hleft, hrel] at h
      simp only [bind, Except.bind] at h
      refine ⟨left, relationship, rfl, rfl, ?_⟩
      cases howned : relationship.foreignKey.ownedBy with
      | left =>
        simp only [howned, pure, Except.pure] at h
        split at h
        · rename_i column hcolumn
          cases h
          exact ⟨rfl, rfl, left, column, hcolumn, rfl, rfl⟩
        · cases h
      | right =>
        cases hright : schema.resourceType relationship.target with
        | error e => simp only [howned, hright] at h; cases h
        | ok owner =>
          simp only [howned, hright] at h
          split at h
          · rename_i column hcolumn
            cases h
            exact ⟨rfl, rfl, owner, column, hcolumn, rfl, rfl⟩
          · cases h

end Schema

namespace Compile

variable {schema : Schema}

/-- **The key columns of a relationship exist** in the tables that it connects. -/
theorem keyColumns_ok {source target : Table} {name : String} {key : ForeignKey}
    {relationship : Relationship} {sourceInfo targetInfo : ResourceType}
    (hkey : schema.foreignKeyOf source.resourceType name = .ok key)
    (hrel : schema.relationship source.resourceType name = .ok relationship)
    (hsource : schema.Stores sourceInfo source) (htarget : schema.Stores targetInfo target)
    (leads : target.resourceType = relationship.target) :
    ∃ outer ∈ source.columns, ∃ inner ∈ target.columns,
      keyColumns key source target = .ok (outer, inner)
        ∧ (outer.name, inner.name) = key.columnNames sourceInfo.idColumn targetInfo.idColumn := by
  obtain ⟨left, found, hleft, hfound, -, -, owner, column, hcolumn, -, howner⟩ :=
    Schema.foreignKeyOf_ok hkey
  cases hrel.symm.trans hfound
  cases hleft.symm.trans hsource.described
  cases howned : key.ownedBy with
  | left =>
    simp only [howned] at howner
    subst howner
    obtain ⟨outer, mem, houter, named⟩ := hsource.getColumn_ok hcolumn
    obtain ⟨inner, mem', hinner, named'⟩ := htarget.idColumn_ok
    refine ⟨outer, mem, inner, mem', ?_, ?_⟩
    · simp only [keyColumns, howned, houter, hinner]
      rfl
    · simp [ForeignKey.columnNames, howned, named, named']
  | right =>
    simp only [howned] at howner
    have same := htarget.described
    rw [leads, howner] at same
    cases same
    obtain ⟨outer, mem, houter, named⟩ := hsource.idColumn_ok
    obtain ⟨inner, mem', hinner, named'⟩ := htarget.getColumn_ok hcolumn
    refine ⟨outer, mem, inner, mem', ?_, ?_⟩
    · simp only [keyColumns, howned, houter, hinner]
      rfl
    · simp [ForeignKey.columnNames, howned, named, named']

/-- **The column of a field exists** in the table of its resource type. -/
theorem getColumn_of_field {t : Table} {info : ResourceType} {name : String} {found : FieldColumn}
    (stores : schema.Stores info t) (h : schema.field t.resourceType name = .ok found) :
    ∃ c ∈ t.columns, t.getColumn found.column = .ok c ∧ c.name = found.column := by
  unfold Schema.field at h
  simp only [stores.described, CompileError.ofLookup, bind, Except.bind] at h
  split at h
  · cases h
  · rename_i source hsource
    split at h
    · rename_i column hcolumn
      cases h
      exact stores.getColumn_ok hcolumn
    · cases h

end Compile

end ResourceQuery
