import ResourceQuery.Proofs.Repository.BadRequests
import ResourceQuery.Proofs.Schema.Columns
import ResourceQuery.Schema.Todo

/-!
# Which changes are detected

Changed columns are found by walking over the table: each column stands for one field, and only a
change of that field is written to it.  A field that shares its column with another one, or whose
column is not in the table, is not reached by the walk.

## Main Definitions

- `Snapshot.ChangesAttribute`, `Snapshot.ChangesToOne`, `Snapshot.ChangesToMany`: what a snapshot
  asks to change.

## Main Statements

- `ChangeSet.detected_if_shown`: changes of fields that their columns stand for are detected,
  changes of other fields are dropped, and relationships stored elsewhere are detected once.
- `ChangeSet.account_key_dropped`: a foreign key that an attribute hides.

## Design Notes

That a change is dropped is said by asking again without it: the answer stays the same.
-/

namespace ResourceQuery

/-! ### What a snapshot asks to change -/

namespace Snapshot

/-- **An attribute changes** if it is set, and was not set to an equal value before. -/
def ChangesAttribute (after : Snapshot) (before? : Option Snapshot) (name : String)
    (new : Json) : Prop :=
  after.attributes.get? name = some new
    ∧ ∀ old, before?.bind (fun before => before.attributes.get? name) = some old →
      old.alike new = false

/-- **A to-one relationship changes** if it is set to another resource than before, or cleared.  If
it was not mentioned before it was empty. -/
def ChangesToOne (after : Snapshot) (before? : Option Snapshot) (name : String)
    (old new : Option ResourceId) : Prop :=
  after.toOne.get? name = some new
    ∧ (before?.bind (fun before => before.toOne.get? name)).join = old ∧ old ≠ new

/-- **A to-many relationship changes** if it is set to other resources than before.  If it was not
mentioned before it was empty. -/
def ChangesToMany (after : Snapshot) (before? : Option Snapshot) (name : String)
    (old new : IdSet) : Prop :=
  after.toMany.get? name = some new
    ∧ (before?.bind (fun before => before.toMany.get? name)).getD IdSet.empty = old ∧ old ≠ new

/-- A snapshot that does not mention an attribute. -/
def withoutAttribute (s : Snapshot) (name : String) : Snapshot :=
  { s with attributes := s.attributes.erase name }

/-- A snapshot that does not mention a to-one relationship. -/
def withoutToOne (s : Snapshot) (name : String) : Snapshot :=
  { s with toOne := s.toOne.erase name }

end Snapshot

namespace ChangeSet

variable {schema : Schema} {resourceType : String} {info : ResourceType}
variable {before? : Option Snapshot} {after after' : Snapshot} {name : String}

/-! ### Comparing fields -/

theorem changedAttribute?_eq_some {new : Json} :
    changedAttribute? before? after name = some new ↔ after.ChangesAttribute before? name new := by
  unfold changedAttribute? Snapshot.ChangesAttribute
  cases after.attributes.get? name with
  | none => simp
  | some value =>
    cases before?.bind (fun before => before.attributes.get? name) with
    | none => simp
    | some old =>
      by_cases same : old.alike value = true <;> grind

theorem changedToOne?_eq_some {old new : Option ResourceId} :
    changedToOne? before? after name = some (old, new)
      ↔ after.ChangesToOne before? name old new := by
  unfold changedToOne? Snapshot.ChangesToOne
  cases after.toOne.get? name with
  | none => simp
  | some value =>
    generalize (before?.bind (fun before => before.toOne.get? name)).join = found
    by_cases same : found = value <;> grind

theorem toManyChange?_eq_some {old new : IdSet}
    (changed : after.ChangesToMany before? name old new) :
    toManyChange? before? after name = some (.toMany ⟨name, old, new⟩) := by
  obtain ⟨set, rfl, different⟩ := changed
  simp [toManyChange?, set, different]

theorem relationshipChange?_of_changesToOne {relationship : Relationship}
    {old new : Option ResourceId} (toOne : relationship.isToOne = true)
    (changed : after.ChangesToOne before? name old new) :
    relationshipChange? schema resourceType before? after name relationship
      = some <$> toOneChange schema resourceType name relationship old new := by
  have single : relationship.isToMany = false := by
    simp_all [Relationship.isToOne, Relationship.isToMany]
  simp only [relationshipChange?, single, Bool.false_eq_true, if_false,
    changedToOne?_eq_some.mpr changed]

theorem changedAttribute?_withoutAttribute (before? : Option Snapshot) (after : Snapshot)
    {name other : String} (different : other ≠ name) :
    changedAttribute? before? (after.withoutAttribute name) other
      = changedAttribute? before? after other := by
  simp [changedAttribute?, Snapshot.withoutAttribute, Dict.get?_erase, different]

theorem changedToOne?_withoutToOne (before? : Option Snapshot) (after : Snapshot)
    (name other : String) :
    changedToOne? before? (after.withoutToOne name) other
      = if other = name then none else changedToOne? before? after other := by
  by_cases same : other = name
  · simp [changedToOne?, Snapshot.withoutToOne, Dict.get?_erase, same]
  · simp [changedToOne?, Snapshot.withoutToOne, Dict.get?_erase, same]

/-! ### The walk over the columns -/

/-- A column that is not walked over does not change. -/
theorem lookup_changedColumns_of_not_mem {fields : List (String × Option ResourceField)}
    {columns : List (String × Sql.Value)} {column : String}
    (walked : changedColumns schema resourceType info before? after fields = .ok columns)
    (notMem : column ∉ fields.map Prod.fst) : columns.lookup column = none := by
  induction fields generalizing columns with
  | nil =>
    cases walked
    rfl
  | cons head rest ih =>
    obtain ⟨value?, -, walked⟩ := Sql.exists_of_bind_ok walked
    obtain ⟨others, later, walked⟩ := Sql.exists_of_bind_ok walked
    cases walked
    rw [List.map_cons, List.mem_cons, not_or] at notMem
    have skip : (column == head.1) = false := beq_false_of_ne notMem.1
    cases value? with
    | none => exact ih later notMem.2
    | some value => simpa [List.lookup_cons, skip] using ih later notMem.2

/-- **A changed column holds the value of the field that it stands for.** -/
theorem lookup_changedColumns {fields : List (String × Option ResourceField)}
    {columns : List (String × Sql.Value)} {column : String} {field? : Option ResourceField}
    (walked : changedColumns schema resourceType info before? after fields = .ok columns)
    (distinct : (fields.map Prod.fst).Nodup) (mem : (column, field?) ∈ fields) :
    columnValue? schema resourceType info before? after column field?
      = .ok (columns.lookup column) := by
  induction fields generalizing columns with
  | nil => cases mem
  | cons head rest ih =>
    obtain ⟨value?, first, walked⟩ := Sql.exists_of_bind_ok walked
    obtain ⟨others, later, walked⟩ := Sql.exists_of_bind_ok walked
    cases walked
    rw [List.map_cons, List.nodup_cons] at distinct
    rcases List.mem_cons.mp mem with rfl | mem
    · rw [first]
      cases value? with
      | none => simp [lookup_changedColumns_of_not_mem later distinct.1]
      | some value => simp
    · have different : column ≠ head.1 := fun same =>
        distinct.1 (same ▸ List.mem_map_of_mem mem)
      have skip : (column == head.1) = false := beq_false_of_ne different
      cases value? with
      | none => exact ih later distinct.2 mem
      | some value => simpa [List.lookup_cons, skip] using ih later distinct.2 mem

/-- **Only changes of fields that columns stand for matter** to the walk. -/
theorem changedColumns_congr {fields : List (String × Option ResourceField)}
    (same : ∀ field ∈ fields,
      columnValue? schema resourceType info before? after' field.1 field.2
        = columnValue? schema resourceType info before? after field.1 field.2) :
    changedColumns schema resourceType info before? after' fields
      = changedColumns schema resourceType info before? after fields := by
  induction fields with
  | nil => rfl
  | cons head rest ih =>
    rw [List.forall_mem_cons] at same
    rw [changedColumns, changedColumns, same.1, ih same.2]

/-! ### The walk over the relationships -/

/-- What is collected from the changes of relationships bears their names. -/
theorem filter_filterMap_eq_nil {β : Type} {changes : List RelationshipChange}
    {collect : RelationshipChange → Option β} {named : β → String}
    (others : ∀ change ∈ changes, ∀ b, collect change = some b → named b ≠ name) :
    (changes.filterMap collect).filter (fun b => named b = name) = [] := by
  rw [List.filter_eq_nil_iff]
  intro b mem same
  obtain ⟨change, changed, found⟩ := List.mem_filterMap.mp mem
  exact others change changed b found (of_decide_eq_true same)

/-- **Each relationship is compared once.**  What is collected from the changes, under the names of
their relationships, is what comes of the one comparison. -/
theorem filter_relationshipChanges {β : Type} {relationships : List (String × Relationship)}
    {changes : List RelationshipChange} {relationship : Relationship}
    (collect : RelationshipChange → Option β) (named : β → String)
    (collected : ∀ other r change b,
      relationshipChange? schema resourceType before? after other r = .ok (some change) →
      collect change = some b → named b = other)
    (distinct : (relationships.map Prod.fst).Nodup) (mem : (name, relationship) ∈ relationships)
    (compared : relationshipChanges schema resourceType before? after relationships = .ok changes) :
    ∃ change?, relationshipChange? schema resourceType before? after name relationship = .ok change?
      ∧ (changes.filterMap collect).filter (fun b => named b = name)
        = (change?.bind collect).toList := by
  induction relationships generalizing changes with
  | nil => cases mem
  | cons head rest ih =>
    obtain ⟨change?, first, compared⟩ := Sql.exists_of_bind_ok compared
    obtain ⟨others, later, compared⟩ := Sql.exists_of_bind_ok compared
    cases compared
    rw [List.map_cons, List.nodup_cons] at distinct
    rw [List.filterMap_append, List.filter_append]
    rcases List.mem_cons.mp mem with rfl | mem
    · have none : (others.filterMap collect).filter (fun b => named b = name) = [] := by
        refine filter_filterMap_eq_nil fun change changed b found same => ?_
        obtain ⟨r, listed, changed⟩ := (mem_relationshipChanges later change).mp changed
        have same : r.1 = name := (collected _ _ _ _ changed found).symm.trans same
        exact distinct.1 (List.mem_map.mpr ⟨r, listed, same⟩)
      refine ⟨change?, first, ?_⟩
      rw [none, List.append_nil]
      cases change? with
      | none => rfl
      | some change =>
        cases found : collect change with
        | none => simp [found]
        | some b => simp [found, collected _ _ _ _ first found]
    · have none : (change?.toList.filterMap collect).filter (fun b => named b = name) = [] := by
        refine filter_filterMap_eq_nil fun change changed b found same => ?_
        rw [Option.mem_toList] at changed
        subst changed
        have same : head.1 = name := (collected _ _ _ _ first found).symm.trans same
        exact distinct.1 (List.mem_map.mpr ⟨_, mem, same.symm⟩)
      obtain ⟨found?, compared, same⟩ := ih distinct.2 mem later
      exact ⟨found?, compared, by rw [none, List.nil_append, same]⟩

theorem relationshipChanges_congr {relationships : List (String × Relationship)}
    (same : ∀ r ∈ relationships,
      relationshipChange? schema resourceType before? after' r.1 r.2
        = relationshipChange? schema resourceType before? after r.1 r.2) :
    relationshipChanges schema resourceType before? after' relationships
      = relationshipChanges schema resourceType before? after relationships := by
  induction relationships with
  | nil => rfl
  | cons head rest ih =>
    rw [List.forall_mem_cons] at same
    rw [relationshipChanges, relationshipChanges, same.1, ih same.2]

/-- Relationships can still be compared if some of them do not change any more. -/
theorem relationshipChanges_of_fewer {relationships : List (String × Relationship)}
    {changes : List RelationshipChange}
    (fewer : ∀ r ∈ relationships,
      relationshipChange? schema resourceType before? after' r.1 r.2
          = relationshipChange? schema resourceType before? after r.1 r.2
        ∨ relationshipChange? schema resourceType before? after' r.1 r.2 = .ok none)
    (compared : relationshipChanges schema resourceType before? after relationships = .ok changes) :
    ∃ others,
      relationshipChanges schema resourceType before? after' relationships = .ok others := by
  induction relationships generalizing changes with
  | nil => exact ⟨[], rfl⟩
  | cons head rest ih =>
    rw [List.forall_mem_cons] at fewer
    obtain ⟨change?, first, compared⟩ := Sql.exists_of_bind_ok compared
    obtain ⟨_, later, -⟩ := Sql.exists_of_bind_ok compared
    obtain ⟨others, later⟩ := ih fewer.2 later
    have first : ∃ found?,
        relationshipChange? schema resourceType before? after' head.1 head.2 = .ok found? := by
      rcases fewer.1 with same | dropped
      · exact ⟨change?, same.trans first⟩
      · exact ⟨none, dropped⟩
    obtain ⟨found?, first⟩ := first
    exact ⟨found?.toList ++ others, by rw [relationshipChanges, first, later]; rfl⟩

/-! ### Detection as a whole -/

/-- The changes of a resource, put together from those of its columns and of its relationships. -/
def ofParts (resourceType : String) (id? : Option ResourceId) (columns : List (String × Sql.Value))
    (changes : List RelationshipChange) : ChangeSet where
  resourceType := resourceType
  resourceId? := id?
  columns := columns
  oneToOne := changes.filterMap (fun c => match c with | .own taken? _ => taken? | _ => none)
  toOneAtRight := changes.filterMap (fun c => match c with | .atRight c => some c | _ => none)
  toMany := changes.filterMap (fun c => match c with | .toMany c => some c | _ => none)
  clearedRequired :=
    changes.filterMap (fun c => match c with | .own _ cleared? => cleared? | _ => none)

/-- **What a detection of changes goes by**: the names are checked, then the columns and the
relationships are compared. -/
theorem detect_eq_ok_iff {changes : ChangeSet} :
    detect schema resourceType before? after = .ok changes
      ↔ ∃ info fields columns found, schema.resourceType resourceType = .ok info
        ∧ checkNames schema resourceType info after = .ok ()
        ∧ schema.columnFields resourceType = .ok fields
        ∧ changedColumns schema resourceType info before? after fields = .ok columns
        ∧ relationshipChanges schema resourceType before? after info.relationships.entries
          = .ok found
        ∧ changes = ofParts resourceType (after.id? <|> before?.bind Snapshot.id?) columns
          found := by
  constructor
  · intro detected
    obtain ⟨info, known, detected⟩ := Sql.exists_of_bind_ok detected
    obtain ⟨⟨⟩, checked, detected⟩ := Sql.exists_of_bind_ok detected
    obtain ⟨fields, mapped, detected⟩ := Sql.exists_of_bind_ok detected
    obtain ⟨columns, walked, detected⟩ := Sql.exists_of_bind_ok detected
    obtain ⟨found, compared, detected⟩ := Sql.exists_of_bind_ok detected
    exact ⟨info, fields, columns, found, lookup_of_ofLookup known, checked,
      lookup_of_ofLookup mapped, walked, lookup_of_ofLookup compared, (Except.ok.inj detected).symm⟩
  · rintro ⟨info, fields, columns, found, known, checked, mapped, walked, compared, rfl⟩
    simp only [detect, known, checked, mapped, walked, compared, CompileError.ofLookup, bind,
      Except.bind]
    rfl

theorem checkAll_of_forall {check : String → Except CompileError Unit} {names : List String}
    (checked : ∀ name ∈ names, check name = .ok ()) : checkAll check names = .ok () := by
  induction names with
  | nil => rfl
  | cons head rest ih =>
    rw [List.forall_mem_cons] at checked
    rw [checkAll, checked.1]
    exact ih checked.2

/-- The names of a snapshot pass the check if they are among those of one that does. -/
theorem checkNames_of_subset (checked : checkNames schema resourceType info after = .ok ())
    (attributes : after'.attributes.keys ⊆ after.attributes.keys)
    (toOne : after'.toOne.keys ⊆ after.toOne.keys)
    (toMany : after'.toMany.keys ⊆ after.toMany.keys) :
    checkNames schema resourceType info after' = .ok () := by
  obtain ⟨⟨⟩, ofAttributes, checked⟩ := Sql.exists_of_bind_ok checked
  obtain ⟨⟨⟩, ofToOne, ofToMany⟩ := Sql.exists_of_bind_ok checked
  unfold checkNames
  rw [checkAll_of_forall (fun name mem => checkAll_ok ofAttributes name (attributes mem)),
    checkAll_of_forall (fun name mem => checkAll_ok ofToOne name (toOne mem))]
  exact checkAll_of_forall (fun name mem => checkAll_ok ofToMany name (toMany mem))

/-- An attribute that passes the check has a column. -/
theorem column_of_checkNames {new : Json}
    (checked : checkNames schema resourceType info after = .ok ())
    (set : after.attributes.get? name = some new) :
    ∃ found column, info.attributes.get? name = some found ∧ found.column? = some column := by
  obtain ⟨⟨⟩, ofAttributes, -⟩ := Sql.exists_of_bind_ok checked
  have checked := checkAll_ok ofAttributes name (Dict.mem_keys_of_get? set)
  unfold checkAttribute at checked
  split at checked
  · cases checked
  · rename_i found stored
    split at checked
    · cases checked
    · rename_i known
      obtain ⟨column, place⟩ := Option.ne_none_iff_exists'.mp (by simpa using known)
      exact ⟨found, column, stored, place⟩

/-- A relationship that passes the check leads to at most one resource. -/
theorem toOne_of_checkNames {new : Option ResourceId}
    (checked : checkNames schema resourceType info after = .ok ())
    (set : after.toOne.get? name = some new) :
    ∃ relationship, schema.relationship resourceType name = .ok relationship
      ∧ relationship.isToOne = true := by
  obtain ⟨⟨⟩, -, checked⟩ := Sql.exists_of_bind_ok checked
  obtain ⟨⟨⟩, ofToOne, -⟩ := Sql.exists_of_bind_ok checked
  obtain ⟨relationship, declared, toOne⟩ :=
    Sql.exists_of_bind_ok (checkAll_ok ofToOne name (Dict.mem_keys_of_get? set))
  refine ⟨relationship, lookup_of_ofLookup declared, ?_⟩
  by_contra no
  rw [if_neg no] at toOne
  cases toOne

/-- A relationship that passes the check leads to any number of resources. -/
theorem toMany_of_checkNames {new : IdSet}
    (checked : checkNames schema resourceType info after = .ok ())
    (set : after.toMany.get? name = some new) :
    ∃ relationship, schema.relationship resourceType name = .ok relationship
      ∧ relationship.isToMany = true := by
  obtain ⟨⟨⟩, -, checked⟩ := Sql.exists_of_bind_ok checked
  obtain ⟨⟨⟩, -, ofToMany⟩ := Sql.exists_of_bind_ok checked
  obtain ⟨relationship, declared, toMany⟩ :=
    Sql.exists_of_bind_ok (checkAll_ok ofToMany name (Dict.mem_keys_of_get? set))
  refine ⟨relationship, lookup_of_ofLookup declared, ?_⟩
  by_contra no
  rw [if_neg no] at toMany
  cases toMany

/-! ### Columns of changed fields -/

/-- A change of an attribute is written to the column that stands for it. -/
theorem lookup_of_showsAttribute {changes : ChangeSet} {new : Json} {found : Attribute}
    {column : String} (detected : detect schema resourceType before? after = .ok changes)
    (known : schema.resourceType resourceType = .ok info)
    (changed : after.ChangesAttribute before? name new)
    (stored : info.attributes.get? name = some found) (place : found.column? = some column)
    (shows : info.ShowsAttribute column name) :
    ∃ value, attributeValue schema resourceType info column name new = .ok value
      ∧ changes.columns.lookup column = some value := by
  obtain ⟨_, fields, columns, _, known', -, mapped, walked, -, rfl⟩ := detect_eq_ok_iff.mp detected
  cases known.symm.trans known'
  have mem := (Schema.mem_columnFields_attribute known mapped stored place).mpr ⟨rfl, shows⟩
  have held := lookup_changedColumns walked (Schema.nodup_columnFields known mapped) mem
  rw [columnValue?, changedAttribute?_eq_some.mpr changed] at held
  cases written : attributeValue schema resourceType info column name new with
  | error e =>
    simp only [written] at held
    cases held
  | ok value =>
    simp only [written] at held
    exact ⟨value, rfl, (Except.ok.inj held).symm⟩

/-- A change of an attribute that no column stands for makes no difference. -/
theorem detect_withoutAttribute {changes : ChangeSet} {found : Attribute} {column : String}
    (detected : detect schema resourceType before? after = .ok changes)
    (known : schema.resourceType resourceType = .ok info)
    (stored : info.attributes.get? name = some found) (place : found.column? = some column)
    (hidden : ¬ info.ShowsAttribute column name) :
    detect schema resourceType before? (after.withoutAttribute name) = .ok changes := by
  obtain ⟨_, fields, columns, others, known', checked, mapped, walked, compared, rfl⟩ :=
    detect_eq_ok_iff.mp detected
  cases known.symm.trans known'
  refine detect_eq_ok_iff.mpr
    ⟨info, fields, columns, others, known, ?_, mapped, ?_, ?_, rfl⟩
  · exact checkNames_of_subset checked (fun _ mem => Dict.mem_keys_of_mem_keys_erase mem)
      (List.Subset.refl _) (List.Subset.refl _)
  · rw [← walked]
    refine changedColumns_congr fun ⟨other, field?⟩ mem => ?_
    match field? with
    | some (.ofAttribute another) =>
      have different : another ≠ name := by
        rintro rfl
        obtain ⟨rfl, shows⟩ := (Schema.mem_columnFields_attribute known mapped stored place).mp mem
        exact hidden shows
      simp only [columnValue?, changedAttribute?_withoutAttribute before? after different]
    | some .id => rfl
    | some (.ofRelationship ..) => rfl
    | none => rfl
  · rw [← compared]
    exact relationshipChanges_congr fun _ _ => rfl

/-- A change of a foreign key is written to the column that stands for it. -/
theorem lookup_of_showsKey {changes : ChangeSet} {old new : Option ResourceId}
    {relationship : Relationship} {column : String}
    (detected : detect schema resourceType before? after = .ok changes)
    (known : schema.resourceType resourceType = .ok info)
    (changed : after.ChangesToOne before? name old new)
    (stored : info.relationships.get? name = some relationship)
    (place : relationship.foreignKey = ⟨.left, column⟩) (declared : column ∈ info.columns.keys)
    (shows : info.ShowsKey column name) :
    changes.columns.lookup column = some (keyValue new) := by
  obtain ⟨_, fields, columns, _, known', -, mapped, walked, -, rfl⟩ := detect_eq_ok_iff.mp detected
  cases known.symm.trans known'
  have mem := (Schema.mem_columnFields_key known mapped stored place declared).mpr ⟨rfl, shows⟩
  have held := lookup_changedColumns walked (Schema.nodup_columnFields known mapped) mem
  simp only [columnValue?, changedToOne?_eq_some.mpr changed, if_true, Option.map_some] at held
  exact (Except.ok.inj held).symm

/-- A change of a foreign key that no column stands for makes no difference to the columns. -/
theorem detect_withoutToOne {changes : ChangeSet} {relationship : Relationship} {column : String}
    (detected : detect schema resourceType before? after = .ok changes)
    (known : schema.resourceType resourceType = .ok info)
    (stored : info.relationships.get? name = some relationship)
    (place : relationship.foreignKey = ⟨.left, column⟩) (declared : column ∈ info.columns.keys)
    (hidden : ¬ info.ShowsKey column name) :
    ∃ others, detect schema resourceType before? (after.withoutToOne name) = .ok others
      ∧ others.columns = changes.columns := by
  obtain ⟨_, fields, columns, _, known', checked, mapped, walked, compared, rfl⟩ :=
    detect_eq_ok_iff.mp detected
  cases known.symm.trans known'
  have fewer : ∀ r ∈ info.relationships.entries,
      relationshipChange? schema resourceType before? (after.withoutToOne name) r.1 r.2
          = relationshipChange? schema resourceType before? after r.1 r.2
        ∨ relationshipChange? schema resourceType before? (after.withoutToOne name) r.1 r.2
          = .ok none := by
    rintro ⟨other, r⟩ -
    cases many : r.isToMany with
    | true => exact .inl (by simp only [relationshipChange?, many, if_true]; rfl)
    | false =>
      by_cases same : other = name
      · exact .inr (by simp [relationshipChange?, many, changedToOne?_withoutToOne, same])
      · exact .inl (by simp [relationshipChange?, many, changedToOne?_withoutToOne, same])
  obtain ⟨found, compared⟩ := relationshipChanges_of_fewer fewer compared
  refine ⟨_, detect_eq_ok_iff.mpr ⟨info, fields, columns, found, known, ?_, mapped, ?_, compared,
    rfl⟩, rfl⟩
  · exact checkNames_of_subset checked (List.Subset.refl _)
      (fun _ mem => Dict.mem_keys_of_mem_keys_erase mem) (List.Subset.refl _)
  · rw [← walked]
    refine changedColumns_congr fun ⟨other, field?⟩ mem => ?_
    match field? with
    | some (.ofRelationship owner another) =>
      by_cases own : owner = resourceType
      · have different : another ≠ name := by
          rintro rfl
          subst own
          obtain ⟨rfl, shows⟩ :=
            (Schema.mem_columnFields_key known mapped stored place declared).mp mem
          exact hidden shows
        simp only [columnValue?, changedToOne?_withoutToOne, different, if_false]
      · simp only [columnValue?, own, if_false]
    | some .id => rfl
    | some (.ofAttribute _) => rfl
    | none => rfl

/-! ### Changed relationships -/

/-- The names under which changes of relationships are collected. -/
theorem atRight_of_relationshipChange? {relationship : Relationship} {change : ToOneChange}
    (compared : relationshipChange? schema resourceType before? after name relationship
      = .ok (some (.atRight change))) : change.relationship = name := by
  rcases relationshipChange?_cases compared with compared | ⟨old, new, compared⟩
  · obtain ⟨_, same⟩ := toMany_of_toManyChange? compared
    cases same
  · rcases toOneChange_ok compared with ⟨_, _, same⟩ | ⟨same, -⟩ <;> cases same
    rfl

theorem toMany_of_relationshipChange? {relationship : Relationship} {change : ToManyChange}
    (compared : relationshipChange? schema resourceType before? after name relationship
      = .ok (some (.toMany change))) : change.relationship = name := by
  rcases relationshipChange?_cases compared with compared | ⟨old, new, compared⟩
  · obtain ⟨new, -, compared⟩ := Option.bind_eq_some_iff.mp compared
    dsimp only at compared
    split at compared <;> cases compared
    rfl
  · rcases toOneChange_ok compared with ⟨_, _, same⟩ | ⟨same, -⟩ <;> cases same

/-- **A changed to-one relationship is resolved**, and recorded once if its target stores it. -/
theorem foreignKeyOf_of_changesToOne {changes : ChangeSet} {old new : Option ResourceId}
    (detected : detect schema resourceType before? after = .ok changes)
    (changed : after.ChangesToOne before? name old new) :
    ∃ key, schema.foreignKeyOf resourceType name = .ok key
      ∧ (key.ownedBy = .right →
        changes.toOneAtRight.filter (fun c => c.relationship = name) = [⟨name, old, new⟩]) := by
  obtain ⟨info, fields, columns, found, known, checked, mapped, walked, compared, rfl⟩ :=
    detect_eq_ok_iff.mp detected
  obtain ⟨relationship, declared, toOne⟩ := toOne_of_checkNames checked changed.1
  obtain ⟨change?, once, recorded⟩ := filter_relationshipChanges
    (fun c => match c with | .atRight c => some c | _ => none) ToOneChange.relationship
    (fun other r change b compared collected => by
      cases change <;> cases collected
      exact atRight_of_relationshipChange? compared)
    info.relationships.keys_nodup (mem_entries_of_relationship known declared) compared
  rw [relationshipChange?_of_changesToOne toOne changed] at once
  cases resolved : schema.foreignKeyOf resourceType name with
  | error e =>
    simp only [toOneChange, resolved] at once
    cases once
  | ok key =>
    refine ⟨key, rfl, fun owned => ?_⟩
    simp only [toOneChange, resolved, bind, Except.bind, owned] at once
    cases once
    exact recorded

/-- **A changed to-many relationship is recorded once.** -/
theorem filter_toMany_of_changesToMany {changes : ChangeSet} {old new : IdSet}
    (detected : detect schema resourceType before? after = .ok changes)
    (changed : after.ChangesToMany before? name old new) :
    changes.toMany.filter (fun c => c.relationship = name) = [⟨name, old, new⟩] := by
  obtain ⟨info, fields, columns, found, known, checked, mapped, walked, compared, rfl⟩ :=
    detect_eq_ok_iff.mp detected
  obtain ⟨relationship, declared, toMany⟩ := toMany_of_checkNames checked changed.1
  obtain ⟨change?, once, recorded⟩ := filter_relationshipChanges
    (fun c => match c with | .toMany c => some c | _ => none) ToManyChange.relationship
    (fun other r change b compared collected => by
      cases change <;> cases collected
      exact toMany_of_relationshipChange? compared)
    info.relationships.keys_nodup (mem_entries_of_relationship known declared) compared
  simp only [relationshipChange?, toMany, if_true, toManyChange?_eq_some changed] at once
  cases once
  exact recorded

/-! ### Changes that are detected and changes that are dropped -/

/-- **Which changes are detected.**  A changed attribute is written to its column if that column
stands for it, and otherwise the detection is the same as if it had not been mentioned.  A changed
to-one relationship whose key the resource itself stores is written to the column of the key if
that column stands for it, and otherwise the changed columns are the same as if it had not been
mentioned.  All other changed relationships are recorded once, with the old and the new value. -/
theorem detected_if_shown {changes : ChangeSet}
    (detected : detect schema resourceType before? after = .ok changes) :
    ∃ info, schema.resourceType resourceType = .ok info
      ∧ (∀ name new, after.ChangesAttribute before? name new →
        ∃ found column, info.attributes.get? name = some found ∧ found.column? = some column
          ∧ (info.ShowsAttribute column name →
            ∃ value, attributeValue schema resourceType info column name new = .ok value
              ∧ changes.columns.lookup column = some value)
          ∧ (¬ info.ShowsAttribute column name →
            detect schema resourceType before? (after.withoutAttribute name) = .ok changes))
      ∧ (∀ name old new, after.ChangesToOne before? name old new →
        ∃ key, schema.foreignKeyOf resourceType name = .ok key
          ∧ (key.ownedBy = .left → info.ShowsKey key.column name →
            changes.columns.lookup key.column = some (keyValue new))
          ∧ (key.ownedBy = .left → ¬ info.ShowsKey key.column name →
            ∃ others, detect schema resourceType before? (after.withoutToOne name) = .ok others
              ∧ others.columns = changes.columns)
          ∧ (key.ownedBy = .right →
            changes.toOneAtRight.filter (fun c => c.relationship = name) = [⟨name, old, new⟩]))
      ∧ ∀ name old new, after.ChangesToMany before? name old new →
        changes.toMany.filter (fun c => c.relationship = name) = [⟨name, old, new⟩] := by
  obtain ⟨info, _, _, _, known, checked, -⟩ := detect_eq_ok_iff.mp detected
  refine ⟨info, known, fun name new changed => ?_, fun name old new changed => ?_,
    fun name old new changed => filter_toMany_of_changesToMany detected changed⟩
  · obtain ⟨found, column, stored, place⟩ := column_of_checkNames checked changed.1
    exact ⟨found, column, stored, place,
      lookup_of_showsAttribute detected known changed stored place,
      detect_withoutAttribute detected known stored place⟩
  · obtain ⟨key, resolved, atRight⟩ := foreignKeyOf_of_changesToOne detected changed
    obtain ⟨left, relationship, known', declared, side, place, owner, _, listed, -, owns⟩ :=
      Schema.foreignKeyOf_ok resolved
    cases known.symm.trans known'
    have stored := Dict.mem_entries_iff.mp (mem_entries_of_relationship known declared)
    have own (owned : key.ownedBy = .left) : relationship.foreignKey = ⟨.left, key.column⟩
        ∧ key.column ∈ info.columns.keys := by
      simp only [owned] at owns
      subst owns
      refine ⟨?_, Dict.mem_keys_of_get? listed⟩
      rw [owned] at side
      rw [side, place]
    exact ⟨key, resolved,
      fun owned => lookup_of_showsKey detected known changed stored (own owned).1 (own owned).2,
      fun owned => detect_withoutToOne detected known stored (own owned).1 (own owned).2, atRight⟩

/-- A tag of an item, without a color. -/
def tagBefore : Snapshot where
  id? := some (.int 7)
  attributes := Dict.ofList [("name", .string "soon")]
  toOne := Dict.ofList [("todoItem", some (.int 1))]
  toMany := ∅

/-- The tag with another name and a color, taken from the item. -/
def tagAfter : Snapshot where
  id? := none
  attributes := Dict.ofList [("name", .string "late")]
  toOne := Dict.ofList [("color", some (.int 3)), ("todoItem", none)]
  toMany := ∅

theorem detected_if_shown_tag :
    ∃ changes, detect Schema.todo "tags" (some tagBefore) tagAfter = .ok changes
      ∧ changes.columns.lookup "Name" = some (.string "late")
      ∧ changes.columns.lookup "TodoItemId" = some .null
      ∧ changes.toOneAtRight.filter (fun c => c.relationship = "color")
        = [⟨"color", none, some (.int 3)⟩] := by
  have detected : detect Schema.todo "tags" (some tagBefore) tagAfter
      = .ok (ofParts "tags" (some (.int 7)) [("Name", .string "late"), ("TodoItemId", .null)]
        [.atRight ⟨"color", none, some (.int 3)⟩, .own none none]) := by decide +kernel
  obtain ⟨info, known, attributes, toOne, -⟩ := detected_if_shown detected
  have typed : Schema.todo.resourceType "tags" = .ok Schema.Todo.tags := by decide +kernel
  cases known.symm.trans typed
  obtain ⟨found, column, stored, place, shown, -⟩ := attributes "name" (.string "late")
    (changedAttribute?_eq_some.mp (by decide +kernel))
  have place' : column = "Name" := by
    have stored' : Schema.Todo.tags.attributes.get? "name" = some ⟨some "Name", none⟩ := by
      decide +kernel
    cases stored.symm.trans stored'
    exact (Option.some.inj place).symm
  subst place'
  have shows : Schema.Todo.tags.ShowsAttribute "Name" "name" :=
    ⟨by decide +kernel, by decide +kernel,
      ((Schema.attributeOfColumn?_eq_some stored).mp (by decide +kernel)).2⟩
  obtain ⟨value, translated, name⟩ := shown shows
  have value' : attributeValue Schema.todo "tags" Schema.Todo.tags "Name" "name" (.string "late")
      = .ok (.string "late") := by decide +kernel
  cases translated.symm.trans value'
  obtain ⟨key, resolved, kept, -, -⟩ := toOne "todoItem" (some (.int 1)) none
    (changedToOne?_eq_some.mp (by decide +kernel))
  have key' : Schema.todo.foreignKeyOf "tags" "todoItem" = .ok ⟨.left, "TodoItemId", true⟩ := by
    decide +kernel
  cases resolved.symm.trans key'
  have item : Schema.Todo.tags.relationships.get? "todoItem"
      = some ⟨"todoItems", .one, ⟨.left, "TodoItemId"⟩, some "tags"⟩ := by decide +kernel
  have showsKey : Schema.Todo.tags.ShowsKey "TodoItemId" "todoItem" :=
    ⟨by decide +kernel, Schema.attributeOfColumn?_eq_none.mp (by decide +kernel),
      ((Schema.ownRelationshipOfColumn?_eq_some item).mp (by decide +kernel)).2⟩
  obtain ⟨key, resolved, -, -, recorded⟩ := toOne "color" none (some (.int 3))
    (changedToOne?_eq_some.mp (by decide +kernel))
  have key' : Schema.todo.foreignKeyOf "tags" "color" = .ok ⟨.right, "TagId", false⟩ := by
    decide +kernel
  cases resolved.symm.trans key'
  exact ⟨_, detected, name, kept rfl showsKey, recorded rfl⟩

/-! ### A person and an account -/

/-- People whose account is a relationship, and the stored key an attribute as well. -/
def personnel : Schema where
  resourceTypes := Dict.ofList [
    ("people", {
      tableName := "People"
      idColumn := "Id"
      columns := Dict.ofList [("Id", ⟨.bigint, false⟩), ("AccountId", ⟨.bigint, true⟩)]
      attributes := Dict.ofList [("accountId", ⟨some "AccountId", none⟩)]
      relationships := Dict.ofList [
        ("account", ⟨"accounts", .one, ⟨.left, "AccountId"⟩, some "person"⟩)] }),
    ("accounts", {
      tableName := "Accounts"
      idColumn := "Id"
      columns := Dict.ofList [("Id", ⟨.bigint, false⟩)]
      attributes := ∅
      relationships := Dict.ofList [
        ("person", ⟨"people", .one, ⟨.right, "AccountId"⟩, some "account"⟩)] })]
  enumTypes := ∅

/-- A person with an account. -/
def personBefore : Snapshot :=
  { Snapshot.empty with
    id? := some (.int 10), toOne := Dict.ofList [("account", some (.int 1))] }

/-- The person with another account. -/
def personAfter : Snapshot :=
  { Snapshot.empty with toOne := Dict.ofList [("account", some (.int 2))] }

/-- **A foreign key that an attribute hides**: the person is to get another account, whose former
holder is noted, but the key of the person does not change. -/
theorem account_key_dropped :
    personAfter.ChangesToOne (some personBefore) "account" (some (.int 1)) (some (.int 2))
      ∧ personnel.foreignKeyOf "people" "account" = .ok ⟨.left, "AccountId", true⟩
      ∧ ∃ changes, detect personnel "people" (some personBefore) personAfter = .ok changes
        ∧ changes.oneToOne = [⟨"account", some (.int 1), .int 2⟩]
        ∧ changes.columns.lookup "AccountId" ≠ some (keyValue (some (.int 2))) := by
  refine ⟨changedToOne?_eq_some.mp (by decide +kernel), by decide +kernel,
    ofParts "people" (some (.int 10)) [] [.own (some ⟨"account", some (.int 1), .int 2⟩) none],
    by decide +kernel, rfl, ?_⟩
  rintro ⟨⟩

end ChangeSet

end ResourceQuery
