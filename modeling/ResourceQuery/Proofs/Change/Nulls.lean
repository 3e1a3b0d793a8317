import ResourceQuery.Proofs.Change.Detection
import ResourceQuery.Proofs.Change.Parameters
import ResourceQuery.Proofs.Change.Plans
import ResourceQuery.Proofs.Compile.Agreement

/-!
# Nulls that changes write

Taking related resources away, and clearing a relationship, writes null to foreign keys.  A column
that may not be null is spared: rows are deleted instead, or the change is refused.  There is one
exception.  When resources of one type refer to each other, and only the resource that is referred
to declares the relationship, the column of the key stands for the relationship in the row of the
resource itself as well, and clearing the relationship writes null there unchecked.

## Main Definitions

- `Sql.Statement.nulls`: the columns to which a statement writes null.
- `ChangeSet.Spares`: a statement writes null only where that is allowed.
- `ChangeSet.MisreadsKey`: a key in the row of the resource itself is taken for that of a related
  one.

## Main Statements

- `ChangeSet.spares_iff_not_misread`: plans spare required columns, except for misread keys.
- `ChangeSet.not_spared_version`: a version whose own key is cleared together with its successor.
-/

namespace ResourceQuery

/-! ### Written nulls -/

namespace Sql

/-- The columns to which null is written. -/
def Assignment.nulls (written : List Assignment) : List String :=
  (written.filter (fun a => a.value.isNull)).map Assignment.column

/-- **The columns to which a statement writes null.** -/
def Statement.nulls : Statement → List String
  | .select _ => []
  | .insert _ written _ => Assignment.nulls written
  | .update _ written _ => Assignment.nulls written
  | .delete _ _ => []

/-- The table that a statement changes. -/
def Statement.table? : Statement → Option String
  | .select _ => none
  | .insert table _ _ => some table
  | .update table _ _ => some table
  | .delete table _ => some table

end Sql

/-- **A table lets a column be null** if a resource type that is stored there declares it so. -/
def Schema.LetsNull (schema : Schema) (table column : String) : Prop :=
  ∃ t ∈ schema.resourceTypes.entries,
    t.2.tableName = table ∧ (t.2.columns.get? column).any ColumnInfo.nullable = true

instance (schema : Schema) (table column : String) : Decidable (schema.LetsNull table column) :=
  inferInstanceAs (Decidable (∃ t ∈ schema.resourceTypes.entries,
    t.2.tableName = table ∧ (t.2.columns.get? column).any ColumnInfo.nullable = true))

theorem Schema.letsNull_of_declared {schema : Schema} {resourceType column : String}
    {info : ResourceType} {declared : ColumnInfo}
    (known : schema.resourceType resourceType = .ok info)
    (listed : info.columns.get? column = some declared) (nullable : declared.nullable = true) :
    schema.LetsNull info.tableName column := by
  unfold Schema.resourceType at known
  split at known
  · rename_i found
    cases known
    exact ⟨(resourceType, _), Dict.mem_entries_iff.mpr found, rfl, by simp [listed, nullable]⟩
  · cases known

namespace ChangeSet

variable {schema : Schema} {resourceType name column : String} {info : ResourceType}
variable {before? : Option Snapshot} {after : Snapshot} {changes : ChangeSet}

/-- A column of the resource itself stands for an attribute that is set to null. -/
def ClearsAttribute (schema : Schema) (resourceType : String) (after : Snapshot)
    (column : String) : Prop :=
  ∃ fields name, schema.columnFields resourceType = .ok fields
    ∧ (column, some (.ofAttribute name)) ∈ fields ∧ after.attributes.get? name = some .null

/-- **A statement spares required columns**: it writes null only to columns that may be null, and to
columns of the resource itself that stand for attributes that are set to null. -/
def Spares (schema : Schema) (resourceType : String) (after : Snapshot)
    (statement : Sql.Statement) : Prop :=
  ∀ column ∈ statement.nulls, ∃ table, statement.table? = some table
    ∧ (schema.LetsNull table column
      ∨ (∃ info, schema.resourceType resourceType = .ok info ∧ info.tableName = table)
        ∧ ClearsAttribute schema resourceType after column)

/-- **A key that is misread**: a relationship leads from a resource type to itself, its key is
stored by the related resource and may not be null, and yet the column stands for the relationship
in the row of the resource, which clears it. -/
structure MisreadsKey (schema : Schema) (resourceType : String) (before? : Option Snapshot)
    (after : Snapshot) (column name : String) : Prop where
  shown : ∃ fields, schema.columnFields resourceType = .ok fields
    ∧ (column, some (.ofRelationship resourceType name)) ∈ fields
  stored : ∃ relationship, schema.relationship resourceType name = .ok relationship
    ∧ relationship.target = resourceType ∧ relationship.foreignKey = ⟨.right, column⟩
  required : ∀ info, schema.resourceType resourceType = .ok info →
    ¬ schema.LetsNull info.tableName column
  cleared : ∃ old, after.ChangesToOne before? name old none

/-! ### Nulls in the columns of the resource -/

/-- Null is written to the columns whose value is null. -/
theorem mem_nulls_assignments (names : Names) (columns : List (String × Sql.Value)) :
    column ∈ Sql.Assignment.nulls (assignments names columns).1 ↔ (column, .null) ∈ columns := by
  induction columns generalizing names with
  | nil => simp [assignments, Sql.Assignment.nulls]
  | cons entry rest ih =>
    obtain ⟨other, value⟩ := entry
    by_cases null : value = .null
    · subst null
      have first : Sql.Assignment.nulls (assignments names ((other, .null) :: rest)).1
          = other :: Sql.Assignment.nulls (assignments names rest).1 := rfl
      rw [first, List.mem_cons, ih names, List.mem_cons, Prod.mk.injEq, and_iff_left rfl]
    · have first : Sql.Assignment.nulls (assignments names ((other, value) :: rest)).1
          = Sql.Assignment.nulls (assignments (names.nextParameter value).2 rest).1 := by
        rw [assignments_cons names other rest null]
        rfl
      rw [first, ih, List.mem_cons, Prod.mk.injEq, or_iff_right]
      exact fun same => null same.2.symm

/-- The columns that change are those whose fields do. -/
theorem mem_changedColumns {fields : List (String × Option ResourceField)}
    {columns : List (String × Sql.Value)} {value : Sql.Value}
    (walked : changedColumns schema resourceType info before? after fields = .ok columns) :
    (column, value) ∈ columns ↔ ∃ field?, (column, field?) ∈ fields
      ∧ columnValue? schema resourceType info before? after column field? = .ok (some value) := by
  induction fields generalizing columns with
  | nil =>
    cases walked
    simp
  | cons head rest ih =>
    obtain ⟨other, field?⟩ := head
    obtain ⟨value?, first, walked⟩ := Sql.exists_of_bind_ok walked
    obtain ⟨others, later, walked⟩ := Sql.exists_of_bind_ok walked
    cases walked
    rw [List.mem_append, ih later, Option.mem_toList, Option.map_eq_some_iff]
    constructor
    · rintro (⟨_, rfl, same⟩ | ⟨found, mem, changed⟩)
      · cases same
        exact ⟨field?, List.mem_cons_self, first⟩
      · exact ⟨found, List.mem_cons_of_mem _ mem, changed⟩
    · rintro ⟨found, mem, changed⟩
      rcases List.mem_cons.mp mem with same | mem
      · cases same
        exact .inl ⟨value, Except.ok.inj (first.symm.trans changed), rfl⟩
      · exact .inr ⟨found, mem, changed⟩

/-- Only null becomes null. -/
theorem eq_null_of_toValue {enumTypes : Dict EnumType} {type : ScalarType}
    {enumType? : Option String} {value : Json}
    (written : Constant.toValue enumTypes type enumType? value = .ok .null) : value = .null := by
  cases Constant.standsFor_of_toValue written with
  | null => rfl

/-- **A column becomes null** if an attribute is set to null, or a relationship of the resource type
that the column stands for is cleared. -/
theorem columnValue?_eq_null {field? : Option ResourceField}
    (written : columnValue? schema resourceType info before? after column field?
      = .ok (some .null)) :
    (∃ name, field? = some (.ofAttribute name) ∧ after.attributes.get? name = some .null)
      ∨ ∃ name old, field? = some (.ofRelationship resourceType name)
        ∧ after.ChangesToOne before? name old none := by
  match field? with
  | none => cases written
  | some .id =>
    have given := Except.ok.inj written
    split at given
    · obtain ⟨id, -, same⟩ := Option.map_eq_some_iff.mp given
      cases id <;> cases same
    · cases given
  | some (.ofAttribute name) =>
    rw [columnValue?] at written
    split at written
    · cases written
    · rename_i new changed
      cases translated : attributeValue schema resourceType info column name new with
      | error e =>
        rw [translated] at written
        cases written
      | ok value =>
        rw [translated] at written
        cases written
        unfold attributeValue at translated
        split at translated
        · cases translated
        · have null : new = .null := eq_null_of_toValue translated
          exact .inl ⟨name, rfl, null ▸ (changedAttribute?_eq_some.mp changed).1⟩
  | some (.ofRelationship owner name) =>
    have given := Except.ok.inj written
    split at given
    · rename_i own
      obtain ⟨⟨old, new⟩, changed, same⟩ := Option.map_eq_some_iff.mp given
      cases new with
      | none => exact .inr ⟨name, old, by rw [own], changedToOne?_eq_some.mp changed⟩
      | some id => cases id <;> cases same
    · cases given

/-! ### Cleared relationships -/

/-- A to-one relationship that the resource itself stores: the resource it takes, and the check that
it may be cleared. -/
theorem own_of_toOneChange {relationship : Relationship} {old new : Option ResourceId}
    {taken? : Option OneToOneChange} {cleared? : Option String}
    (compared : toOneChange schema resourceType name relationship old new
      = .ok (.own taken? cleared?)) :
    ∃ key exclusive, schema.foreignKeyOf resourceType name = .ok key ∧ key.ownedBy = .left
      ∧ inverseIsToOne schema relationship = .ok exclusive
      ∧ taken? = (if exclusive then new.map (fun id => ⟨name, old, id⟩) else none)
      ∧ cleared? = (if new.isNone && !key.nullable then some name else none) := by
  obtain ⟨key, resolved, compared⟩ := Sql.exists_of_bind_ok compared
  cases owned : key.ownedBy with
  | left =>
    rw [owned] at compared
    obtain ⟨exclusive, inverse, compared⟩ := Sql.exists_of_bind_ok compared
    cases compared
    exact ⟨key, exclusive, resolved, owned, inverse, rfl, rfl⟩
  | right =>
    rw [owned] at compared
    cases compared

/-- The relationships that a resource stores itself and that change are compared as such. -/
theorem own_of_relationshipChange? {relationship : Relationship} {taken? : Option OneToOneChange}
    {cleared? : Option String}
    (compared : relationshipChange? schema resourceType before? after name relationship
      = .ok (some (.own taken? cleared?))) :
    ∃ old new, toOneChange schema resourceType name relationship old new
      = .ok (.own taken? cleared?) := by
  rcases relationshipChange?_cases compared with compared | changed
  · obtain ⟨_, same⟩ := toMany_of_toManyChange? compared
    cases same
  · exact changed

theorem checkRequired_eq_ok : changes.checkRequired = .ok () ↔ changes.clearedRequired = [] := by
  unfold checkRequired
  split <;> simp_all

/-- Where all relationships could be compared, each of them could. -/
theorem exists_relationshipChange? {relationships : List (String × Relationship)}
    {found : List RelationshipChange}
    (compared : relationshipChanges schema resourceType before? after relationships = .ok found)
    {r : String × Relationship} (mem : r ∈ relationships) :
    ∃ change?, relationshipChange? schema resourceType before? after r.1 r.2 = .ok change? := by
  induction relationships generalizing found with
  | nil => cases mem
  | cons head rest ih =>
    obtain ⟨change?, first, compared⟩ := Sql.exists_of_bind_ok compared
    obtain ⟨others, later, -⟩ := Sql.exists_of_bind_ok compared
    rcases List.mem_cons.mp mem with rfl | mem
    · exact ⟨change?, first⟩
    · exact ih later mem

/-- A to-one relationship that changes is among the changes. -/
theorem exists_toOneChange {relationships : List (String × Relationship)}
    {found : List RelationshipChange} {relationship : Relationship} {old new : Option ResourceId}
    (compared : relationshipChanges schema resourceType before? after relationships = .ok found)
    (mem : (name, relationship) ∈ relationships) (toOne : relationship.isToOne = true)
    (changed : after.ChangesToOne before? name old new) :
    ∃ change ∈ found, toOneChange schema resourceType name relationship old new = .ok change := by
  obtain ⟨change?, once⟩ := exists_relationshipChange? compared mem
  have step : relationshipChange? schema resourceType before? after name relationship
      = some <$> toOneChange schema resourceType name relationship old new :=
    relationshipChange?_of_changesToOne toOne changed
  cases outcome : toOneChange schema resourceType name relationship old new with
  | error e =>
    rw [step, outcome] at once
    cases once
  | ok change =>
    rw [outcome] at step
    exact ⟨change, (mem_relationshipChanges compared change).mpr ⟨_, mem, step⟩, rfl⟩

/-- **A relationship that the resource itself stores is cleared only if it may be.** -/
theorem nullable_of_cleared {relationship : Relationship} {old : Option ResourceId}
    (detected : detect schema resourceType before? after = .ok changes)
    (allowed : changes.checkRequired = .ok ())
    (known : schema.resourceType resourceType = .ok info)
    (stored : info.relationships.get? name = some relationship)
    (place : relationship.foreignKey = ⟨.left, column⟩)
    (cleared : after.ChangesToOne before? name old none) :
    schema.LetsNull info.tableName column := by
  obtain ⟨_, _, _, found, known', checked, -, -, compared, rfl⟩ := detect_eq_ok_iff.mp detected
  cases known.symm.trans known'
  obtain ⟨_, declared, toOne⟩ := toOne_of_checkNames checked cleared.1
  have mem := mem_entries_of_relationship known declared
  cases stored.symm.trans (Dict.mem_entries_iff.mp mem)
  obtain ⟨change, noted, changed⟩ := exists_toOneChange compared mem toOne cleared
  obtain ⟨key, resolved, changed⟩ := Sql.exists_of_bind_ok changed
  obtain ⟨_, _, known', declared', side, column', _, _, listed, nullable, owns⟩ :=
    Schema.foreignKeyOf_ok resolved
  cases known.symm.trans known'
  cases declared.symm.trans declared'
  rw [place] at side column'
  rw [side] at changed owns
  subst column' owns
  obtain ⟨exclusive, -, changed⟩ := Sql.exists_of_bind_ok changed
  cases changed
  refine Schema.letsNull_of_declared known listed (nullable.trans ?_)
  by_contra required
  have refused := List.filterMap_eq_nil_iff.mp (checkRequired_eq_ok.mp allowed) _ noted
  simp [required] at refused

/-! ### Steps that write to foreign keys -/

/-- Rows are deleted where a key may not be cleared. -/
theorem spares_clearOrDelete {table : String} {nullable : Bool} (filter : Sql.Condition)
    (lets : nullable = true → schema.LetsNull table column) :
    Spares schema resourceType after (clearOrDelete table column nullable filter) := by
  intro written mem
  cases may : nullable with
  | false =>
    rw [may] at mem
    cases mem
  | true =>
    rw [may] at mem
    have same : written = column := List.mem_singleton.mp mem
    exact ⟨table, rfl, .inl (same ▸ lets may)⟩

theorem spares_planRelease {steps : List MutationStep}
    (detected : detect schema resourceType before? after = .ok changes)
    (planned : planRelease schema changes = .ok steps) :
    ∀ step ∈ steps, Spares schema resourceType after step.statement := by
  intro step mem
  obtain ⟨change, taken, released⟩ := mem_planRelease planned mem
  obtain ⟨_, _, _, found, -, -, -, -, compared, rfl⟩ := detect_eq_ok_iff.mp detected
  obtain ⟨key, info, resolved, known, rfl⟩ := releaseStep_eq_ok_iff.mp released
  refine spares_clearOrDelete _ fun nullable => ?_
  obtain ⟨c, mem, same⟩ := List.mem_filterMap.mp taken
  cases c <;> cases same
  obtain ⟨r, -, compared⟩ := (mem_relationshipChanges compared _).mp mem
  obtain ⟨old, new, changed⟩ := own_of_relationshipChange? compared
  obtain ⟨own, exclusive, resolved', owned, -, taken, -⟩ := own_of_toOneChange changed
  have named : change.relationship = r.1 := by
    split at taken
    · obtain ⟨_, -, rfl⟩ := Option.map_eq_some_iff.mp taken.symm
      rfl
    · cases taken
  rw [named] at resolved
  cases resolved.symm.trans resolved'
  obtain ⟨_, _, known', -, -, -, _, _, listed, optional, owns⟩ := Schema.foreignKeyOf_ok resolved
  rw [owned] at owns
  subst owns
  cases known.symm.trans known'
  exact Schema.letsNull_of_declared known listed (optional.trans nullable)

theorem spares_planRelated {steps : List MutationStep} {id : ResourceId}
    (planned : planRelated schema changes id = .ok steps) :
    ∀ step ∈ steps, Spares schema resourceType after step.statement := by
  intro step mem
  obtain ⟨change, -, table, found, mem⟩ := mem_relatedSteps planned mem
  obtain ⟨_, target, declared, resolved, owned, known, named, -⟩ :=
    relatedTable_eq_ok_iff.mp found
  obtain ⟨_, _, -, declared', -, -, _, _, listed, optional, owns⟩ := Schema.foreignKeyOf_ok resolved
  rw [owned] at owns
  cases declared.symm.trans declared'
  cases known.symm.trans owns
  unfold RelatedTable.replace at mem
  rcases List.mem_append.mp mem with mem | mem
  · split at mem
    · cases mem
    · cases List.mem_singleton.mp mem
      refine spares_clearOrDelete _ fun nullable => ?_
      rw [named]
      exact Schema.letsNull_of_declared known listed (optional.trans nullable)
  · split at mem
    · cases mem
    · cases List.mem_singleton.mp mem
      intro column written
      cases written

/-! ### The step that writes the resource itself -/

/-- A misread key is written to. -/
theorem mem_columns_of_misread (detected : detect schema resourceType before? after = .ok changes)
    (misread : MisreadsKey schema resourceType before? after column name) :
    (column, .null) ∈ changes.columns := by
  obtain ⟨⟨fields, mapped, shown⟩, -, -, old, cleared⟩ := misread
  obtain ⟨info, _, columns, _, -, -, mapped', walked, -, rfl⟩ := detect_eq_ok_iff.mp detected
  cases mapped.symm.trans mapped'
  refine (mem_changedColumns walked).mpr ⟨_, shown, ?_⟩
  simp only [columnValue?, changedToOne?_eq_some.mpr cleared, if_true]
  rfl

/-- **Nulls in the columns of a resource** are allowed, or written to misread keys. -/
theorem allowed_of_mem_columns (detected : detect schema resourceType before? after = .ok changes)
    (allowed : changes.checkRequired = .ok ())
    (known : schema.resourceType resourceType = .ok info)
    (written : (column, .null) ∈ changes.columns) :
    schema.LetsNull info.tableName column ∨ ClearsAttribute schema resourceType after column
      ∨ ∃ name, MisreadsKey schema resourceType before? after column name := by
  obtain ⟨_, fields, columns, _, known', -, mapped, walked, -, same⟩ := detect_eq_ok_iff.mp detected
  cases known.symm.trans known'
  rw [same] at written
  obtain ⟨field?, shown, written⟩ := (mem_changedColumns walked).mp written
  rcases columnValue?_eq_null written with ⟨name, rfl, set⟩ | ⟨name, old, rfl, cleared⟩
  · exact .inr (.inl ⟨fields, name, mapped, shown, set⟩)
  · obtain ⟨-, relationship, stored, place | ⟨leads, place⟩⟩ :=
      Schema.relationship_of_mem_columnFields known mapped shown
    · exact .inl (nullable_of_cleared detected allowed known stored place cleared)
    · by_cases lets : schema.LetsNull info.tableName column
      · exact .inl lets
      · refine .inr (.inr ⟨name, ⟨fields, mapped, shown⟩, ⟨relationship, ?_, leads, place⟩, ?_,
          old, cleared⟩)
        · simp only [Schema.relationship, known, stored, bind, Except.bind]
        · intro info' known'
          cases known.symm.trans known'
          exact lets

/-- A statement that writes the columns of the resource spares required columns if and only if no
key is misread. -/
theorem spares_own_iff {statement : Sql.Statement}
    (detected : detect schema resourceType before? after = .ok changes)
    (allowed : changes.checkRequired = .ok ())
    (known : schema.resourceType resourceType = .ok info)
    (place : statement.table? = some info.tableName)
    (nulls : ∀ column, column ∈ statement.nulls ↔ (column, .null) ∈ changes.columns) :
    Spares schema resourceType after statement
      ↔ ∀ column name, ¬ MisreadsKey schema resourceType before? after column name := by
  constructor
  · intro spares column name misread
    obtain ⟨table, place', lets | ⟨-, fields, other, mapped, shown, -⟩⟩ :=
      spares column ((nulls column).mpr (mem_columns_of_misread detected misread))
    · cases place.symm.trans place'
      exact misread.required info known lets
    · -- A column stands for one field, so it cannot stand for an attribute too.
      obtain ⟨fields', mapped', shown'⟩ := misread.shown
      cases mapped.symm.trans mapped'
      have same :=
        List.inj_on_of_nodup_map (Schema.nodup_columnFields known mapped) shown shown' rfl
      cases same
  · intro none column written
    refine ⟨info.tableName, place, ?_⟩
    rcases allowed_of_mem_columns detected allowed known ((nulls column).mp written) with
      lets | set | ⟨name, misread⟩
    · exact .inl lets
    · exact .inr ⟨⟨info, known, rfl⟩, set⟩
    · exact absurd misread (none column name)

theorem spares_ownStep_iff {id : ResourceId}
    (detected : detect schema resourceType before? after = .ok changes)
    (allowed : changes.checkRequired = .ok ())
    (known : schema.resourceType resourceType = .ok info) :
    (∀ step ∈ ownStep info changes id, Spares schema resourceType after step.statement)
      ↔ ∀ column name, ¬ MisreadsKey schema resourceType before? after column name := by
  unfold ownStep
  split
  · rename_i unchanged
    refine ⟨fun _ column name misread => ?_, fun _ step mem => absurd mem List.not_mem_nil⟩
    have written := mem_columns_of_misread detected misread
    rw [List.isEmpty_iff.mp unchanged] at written
    cases written
  · rw [List.forall_mem_singleton]
    exact spares_own_iff detected allowed known rfl fun column => mem_nulls_assignments _ _

/-! ### Plans -/

/-- **Plans spare required columns**, except for misread keys: the steps of an update, and those of
a creation up to the insertion, write null only where that is allowed if and only if no key is
misread, and the steps after an insertion always do. -/
theorem spares_iff_not_misread
    (detected : detect schema resourceType before? after = .ok changes) :
    (∀ steps, changes.planUpdate schema = .ok steps →
      ((∀ step ∈ steps, Spares schema resourceType after step.statement)
        ↔ ∀ column name, ¬ MisreadsKey schema resourceType before? after column name))
    ∧ (∀ plan, changes.planCreate schema = .ok plan →
      ((∀ step ∈ plan.beforeInsert ++ [plan.insert],
          Spares schema resourceType after step.statement)
        ↔ ∀ column name, ¬ MisreadsKey schema resourceType before? after column name))
    ∧ ∀ id steps, changes.planAfterCreate schema id = .ok steps →
      ∀ step ∈ steps, Spares schema resourceType after step.statement := by
  have type : changes.resourceType = resourceType := by
    obtain ⟨_, _, _, _, -, -, -, -, -, rfl⟩ := detect_eq_ok_iff.mp detected
    rfl
  refine ⟨fun steps planned => ?_, fun plan planned => ?_,
    fun id steps planned => spares_planRelated planned⟩
  · obtain ⟨allowed, id, release, info, related, -, released, known, added, rfl⟩ :=
      planUpdate_eq_ok_iff.mp planned
    rw [type] at known
    rw [List.forall_mem_append, List.forall_mem_append,
      and_iff_left (spares_planRelated added), and_iff_right (spares_planRelease detected released),
      spares_ownStep_iff detected allowed known]
  · obtain ⟨allowed, release, info, released, known, rfl⟩ := planCreate_eq_ok_iff.mp planned
    rw [type] at known
    rw [List.forall_mem_append, and_iff_right (spares_planRelease detected released),
      List.forall_mem_singleton]
    exact spares_own_iff detected allowed known rfl fun column => mem_nulls_assignments _ _

/-- The tag that is taken from its item: the key of the item may be null. -/
theorem spares_iff_not_misread_tag :
    ∃ changes steps, detect Schema.todo "tags" (some tagBefore) tagAfter = .ok changes
      ∧ ("TodoItemId", .null) ∈ changes.columns ∧ changes.planUpdate Schema.todo = .ok steps
      ∧ ∀ step ∈ steps, Spares Schema.todo "tags" tagAfter step.statement := by
  have detected : detect Schema.todo "tags" (some tagBefore) tagAfter
      = .ok (ofParts "tags" (some (.int 7)) [("Name", .string "late"), ("TodoItemId", .null)]
        [.atRight ⟨"color", none, some (.int 3)⟩, .own none none]) := by decide +kernel
  obtain ⟨steps, planned⟩ := exists_of_isOk (show ((ofParts "tags" (some (.int 7))
    [("Name", .string "late"), ("TodoItemId", .null)] [.atRight ⟨"color", none, some (.int 3)⟩,
      .own none none]).planUpdate Schema.todo).isOk = true by decide +kernel)
  refine ⟨_, steps, detected, by simp [ofParts], planned,
    ((spares_iff_not_misread detected).1 steps planned).mpr ?_⟩
  rintro column name ⟨-, ⟨relationship, declared, leads, -⟩, -⟩
  have typed : Schema.todo.resourceType "tags" = .ok Schema.Todo.tags := by decide +kernel
  have elsewhere : ∀ r ∈ Schema.Todo.tags.relationships.entries, r.2.target ≠ "tags" := by
    decide +kernel
  exact elsewhere _ (mem_entries_of_relationship typed declared) leads

/-! ### A version and its successor -/

/-- Versions that are stored with their predecessors.  Only the predecessor declares the
relationship. -/
def versions : Schema where
  resourceTypes := Dict.ofList [
    ("versions", {
      tableName := "Versions"
      idColumn := "Id"
      columns := Dict.ofList [("Id", ⟨.bigint, false⟩), ("PredecessorId", ⟨.bigint, false⟩)]
      attributes := ∅
      relationships := Dict.ofList [
        ("successor", ⟨"versions", .one, ⟨.right, "PredecessorId"⟩, none⟩)] })]
  enumTypes := ∅

/-- A version with a successor. -/
def versionBefore : Snapshot :=
  { Snapshot.empty with id? := some (.int 1), toOne := Dict.ofList [("successor", some (.int 2))] }

/-- The version without its successor. -/
def versionAfter : Snapshot :=
  { Snapshot.empty with toOne := Dict.ofList [("successor", none)] }

/-- **The key of a version is cleared together with its successor**: the successor is deleted, since
it may not be without a predecessor, but the version itself is left without one. -/
theorem not_spared_version :
    ∃ changes steps, detect versions "versions" (some versionBefore) versionAfter = .ok changes
      ∧ changes.planUpdate versions = .ok steps
      ∧ ∃ step ∈ steps, step.statement.table? = some "Versions"
        ∧ step.statement.nulls = ["PredecessorId"] ∧ ¬ versions.LetsNull "Versions" "PredecessorId"
        ∧ ¬ Spares versions "versions" versionAfter step.statement := by
  have detected : detect versions "versions" (some versionBefore) versionAfter
      = .ok (ofParts "versions" (some (.int 1)) [("PredecessorId", .null)]
        [.atRight ⟨"successor", some (.int 2), none⟩]) := by decide +kernel
  have required : ¬ versions.LetsNull "Versions" "PredecessorId" := by decide +kernel
  obtain ⟨steps, planned⟩ := exists_of_isOk (show ((ofParts "versions" (some (.int 1))
    [("PredecessorId", .null)] [.atRight ⟨"successor", some (.int 2), none⟩]).planUpdate
      versions).isOk = true by decide +kernel)
  obtain ⟨-, id, release, info, related, -, -, known, -, parts⟩ := planUpdate_eq_ok_iff.mp planned
  have named : (versions.resourceType "versions").toOption.map ResourceType.tableName
      = some "Versions" := by decide +kernel
  rw [show versions.resourceType "versions" = .ok info from known] at named
  have place : some info.tableName = some "Versions" := named
  refine ⟨_, steps, detected, planned,
    ⟨.update info.tableName [⟨"PredecessorId", .null⟩] (isOneOf Names.fresh info.idColumn [id]),
      .exactly 1⟩, ?_, place, rfl, required, fun spares => ?_⟩
  · rw [parts]
    exact List.mem_append_left _ (List.mem_append_right _ List.mem_cons_self)
  · obtain ⟨table, same, lets | ⟨-, _, name, -, -, set⟩⟩ :=
      spares "PredecessorId" List.mem_cons_self
    · cases place.symm.trans same
      exact required lets
    · cases set

end ChangeSet

end ResourceQuery
