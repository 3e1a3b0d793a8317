import ResourceQuery.Proofs.Dict
import ResourceQuery.Proofs.Schema.Tables

/-!
# Columns and the fields they stand for

Each column of a table stands for one field of the resource at most.  Where several fields are
stored in one column it stands for the first of them, attributes before relationships, and for none
of them if it is the identifier.

## Main Definitions

- `ResourceType.ShowsAttribute`, `ResourceType.ShowsKey`: a column stands for an attribute or for
  the foreign key of a relationship.

## Main Statements

- `Schema.mem_columnFields_attribute`, `Schema.mem_columnFields_key`: the columns that stand for a
  field.
- `Schema.relationship_of_mem_columnFields`: the relationships that a column can stand for.
-/

namespace ResourceQuery

namespace ResourceType

/-- **A column stands for an attribute** that is stored there: it is declared, is not the
identifier, and no attribute with an earlier name is stored there too. -/
structure ShowsAttribute (info : ResourceType) (column name : String) : Prop where
  declared : column ∈ info.columns.keys
  notId : column ≠ info.idColumn
  first : ∀ earlier < name, ∀ found, info.attributes.get? earlier = some found →
    found.column? ≠ some column

/-- **A column stands for the foreign key** of a relationship that is stored there: it is not the
identifier, no attribute is stored there, and no relationship with an earlier name is. -/
structure ShowsKey (info : ResourceType) (column name : String) : Prop where
  notId : column ≠ info.idColumn
  noAttribute : ∀ other found, info.attributes.get? other = some found →
    found.column? ≠ some column
  first : ∀ earlier < name, ∀ relationship, info.relationships.get? earlier = some relationship →
    relationship.foreignKey ≠ ⟨.left, column⟩

end ResourceType

namespace Schema

variable {schema : Schema} {resourceType column name : String} {info : ResourceType}

/-! ### Fields of columns -/

theorem attributeOfColumn?_eq_some {found : Attribute}
    (stored : info.attributes.get? name = some found) :
    attributeOfColumn? info column = some name
      ↔ found.column? = some column
        ∧ ∀ earlier < name, ∀ other, info.attributes.get? earlier = some other →
          other.column? ≠ some column := by
  unfold attributeOfColumn?
  simpa using Dict.map_find?_entries_iff (p := fun a => decide (a.column? = some column)) stored

theorem attributeOfColumn?_eq_none :
    attributeOfColumn? info column = none
      ↔ ∀ other found, info.attributes.get? other = some found → found.column? ≠ some column := by
  unfold attributeOfColumn?
  rw [Option.map_eq_none_iff, List.find?_eq_none]
  simp only [Prod.forall, Dict.mem_entries_iff, decide_eq_true_eq, ne_eq]

theorem ownRelationshipOfColumn?_eq_some {relationship : Relationship}
    (stored : info.relationships.get? name = some relationship) :
    ownRelationshipOfColumn? info column = some name
      ↔ relationship.foreignKey = ⟨.left, column⟩
        ∧ ∀ earlier < name, ∀ other, info.relationships.get? earlier = some other →
          other.foreignKey ≠ ⟨.left, column⟩ := by
  have test (r : Relationship) : (decide (r.foreignKey.ownedBy = .left)
      && decide (r.foreignKey.column = column)) = decide (r.foreignKey = ⟨.left, column⟩) := by
    obtain ⟨_, _, ⟨_, _⟩, _⟩ := r
    simp
  unfold ownRelationshipOfColumn?
  simp only [test]
  simpa using
    Dict.map_find?_entries_iff (p := fun r => decide (r.foreignKey = ⟨.left, column⟩)) stored

/-- The relationship that a column of its target backs. -/
theorem inverse_of_column {owner : String}
    (backed : schema.inverseRelationshipOfColumn? resourceType column = some (owner, name)) :
    ∃ left relationship, schema.resourceType owner = .ok left
      ∧ left.relationships.get? name = some relationship
      ∧ relationship.target = resourceType ∧ relationship.foreignKey = ⟨.right, column⟩ := by
  obtain ⟨⟨_, _, relationship⟩, first, same⟩ := Option.map_eq_some_iff.mp backed
  cases same
  have holds := List.find?_some first
  obtain ⟨⟨_, left⟩, typed, listed⟩ := List.mem_flatMap.mp (List.mem_of_find?_eq_some first)
  obtain ⟨⟨_, found⟩, entry, same⟩ := List.mem_map.mp listed
  cases same
  refine ⟨left, found, ?_, Dict.mem_entries_iff.mp entry, ?_⟩
  · rw [Schema.resourceType, Dict.mem_entries_iff.mp typed]
  · obtain ⟨_, _, ⟨_, _⟩, _⟩ := found
    simp_all

/-- The columns of a table other than the identifier stand for the fields that they back. -/
theorem mem_columnFields {fields : List (String × Option ResourceField)}
    (known : schema.resourceType resourceType = .ok info)
    (mapped : schema.columnFields resourceType = .ok fields) (field? : Option ResourceField) :
    (column, field?) ∈ fields
      ↔ column = info.idColumn ∧ field? = some .id
        ∨ column ∈ info.columns.keys ∧ column ≠ info.idColumn
          ∧ schema.fieldOfColumn? resourceType info column = field? := by
  unfold columnFields at mapped
  rw [known] at mapped
  cases mapped
  simp only [List.mem_cons, Prod.mk.injEq, List.mem_map, List.mem_filter, decide_eq_true_eq]
  refine or_congr_right ⟨?_, ?_⟩
  · rintro ⟨_, ⟨declared, notId⟩, rfl, same⟩
    exact ⟨declared, notId, same⟩
  · rintro ⟨declared, notId, same⟩
    exact ⟨column, ⟨declared, notId⟩, rfl, same⟩

/-- The names of the columns of a table are distinct. -/
theorem nodup_columnFields {fields : List (String × Option ResourceField)}
    (known : schema.resourceType resourceType = .ok info)
    (mapped : schema.columnFields resourceType = .ok fields) : (fields.map Prod.fst).Nodup := by
  rw [map_fst_columnFields mapped known]
  exact List.nodup_cons.mpr ⟨by simp, info.columns.keys_nodup.filter _⟩

/-- **The columns that stand for an attribute**: none but its own, and that one only if it shows
it. -/
theorem mem_columnFields_attribute {fields : List (String × Option ResourceField)}
    {found : Attribute} {own : String} (known : schema.resourceType resourceType = .ok info)
    (mapped : schema.columnFields resourceType = .ok fields)
    (stored : info.attributes.get? name = some found) (place : found.column? = some own) :
    (column, some (.ofAttribute name)) ∈ fields
      ↔ column = own ∧ info.ShowsAttribute column name := by
  have backed : schema.fieldOfColumn? resourceType info column = some (.ofAttribute name)
      ↔ attributeOfColumn? info column = some name := by
    unfold fieldOfColumn?
    split
    · simp_all
    · split
      · simp_all
      · simp_all
  rw [mem_columnFields known mapped, backed, attributeOfColumn?_eq_some stored, place]
  constructor
  · rintro (⟨-, no⟩ | ⟨declared, notId, same, first⟩)
    · cases no
    · exact ⟨(Option.some.inj same).symm, declared, notId, first⟩
  · rintro ⟨rfl, shows⟩
    exact .inr ⟨shows.declared, shows.notId, rfl, shows.first⟩

/-- **The columns that stand for a foreign key** of a resource type itself: none but its own, and
that one only if it shows it. -/
theorem mem_columnFields_key {fields : List (String × Option ResourceField)}
    {relationship : Relationship} {own : String}
    (known : schema.resourceType resourceType = .ok info)
    (mapped : schema.columnFields resourceType = .ok fields)
    (stored : info.relationships.get? name = some relationship)
    (place : relationship.foreignKey = ⟨.left, own⟩) (declared : own ∈ info.columns.keys) :
    (column, some (.ofRelationship resourceType name)) ∈ fields
      ↔ column = own ∧ info.ShowsKey column name := by
  -- A relationship that leads back from its target is stored on the right, so it is another one.
  have notInverse : schema.inverseRelationshipOfColumn? resourceType column
      ≠ some (resourceType, name) := by
    intro first
    obtain ⟨left, other, known', stored', -, place'⟩ := inverse_of_column first
    cases known.symm.trans known'
    cases stored.symm.trans stored'
    cases place.symm.trans place'
  have backed : schema.fieldOfColumn? resourceType info column
        = some (.ofRelationship resourceType name)
      ↔ attributeOfColumn? info column = none
        ∧ ownRelationshipOfColumn? info column = some name := by
    unfold fieldOfColumn?
    split
    · simp_all
    · split
      · simp_all
      · rename_i none' own'
        simp only [Option.map_eq_some_iff, own', reduceCtorEq, and_false, iff_false]
        rintro ⟨⟨type, other⟩, first, same⟩
        cases same
        exact notInverse first
  rw [mem_columnFields known mapped, backed, attributeOfColumn?_eq_none,
    ownRelationshipOfColumn?_eq_some stored, place]
  constructor
  · rintro (⟨-, no⟩ | ⟨-, notId, free, same, first⟩)
    · cases no
    · exact ⟨(KeyLocation.mk.inj same).2.symm, notId, free, first⟩
  · rintro ⟨rfl, shows⟩
    exact .inr ⟨declared, shows.notId, shows.noAttribute, rfl, shows.first⟩

/-- **The relationships that a column can stand for** as a key of the resource type itself: one that
is stored there, or one that leads back to the resource type and is stored by its target. -/
theorem relationship_of_mem_columnFields {fields : List (String × Option ResourceField)}
    (known : schema.resourceType resourceType = .ok info)
    (mapped : schema.columnFields resourceType = .ok fields)
    (mem : (column, some (.ofRelationship resourceType name)) ∈ fields) :
    column ∈ info.columns.keys
      ∧ ∃ relationship, info.relationships.get? name = some relationship
        ∧ (relationship.foreignKey = ⟨.left, column⟩
          ∨ relationship.target = resourceType ∧ relationship.foreignKey = ⟨.right, column⟩) := by
  rcases (mem_columnFields known mapped _).mp mem with ⟨-, no⟩ | ⟨declared, -, backed⟩
  · cases no
  refine ⟨declared, ?_⟩
  unfold fieldOfColumn? at backed
  split at backed
  · cases backed
  · split at backed
    · rename_i own
      cases backed
      obtain ⟨⟨_, relationship⟩, first, rfl⟩ := Option.map_eq_some_iff.mp own
      have stored := Dict.mem_entries_iff.mp (List.mem_of_find?_eq_some first)
      exact ⟨relationship, stored, .inl ((ownRelationshipOfColumn?_eq_some stored).mp own).1⟩
    · obtain ⟨⟨_, _⟩, first, same⟩ := Option.map_eq_some_iff.mp backed
      cases same
      obtain ⟨left, relationship, known', stored, place⟩ := inverse_of_column first
      cases known.symm.trans known'
      exact ⟨relationship, stored, .inr place⟩

end Schema

end ResourceQuery
