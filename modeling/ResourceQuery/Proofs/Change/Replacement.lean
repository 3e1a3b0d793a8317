import ResourceQuery.Proofs.Change.Application
import ResourceQuery.Proofs.Change.Plans
import ResourceQuery.Proofs.Change.Repetition
import ResourceQuery.Proofs.Compile.RowGroups

/-!
# Replacing the members of a relationship

The members of a to-many relationship are the rows whose foreign key holds the identifier of the
resource.  Replacing them takes away those that are no longer members and adds the new ones, and
touches nothing else.

## Main Definitions

- `Members`: the rows that refer to a resource are those of given resources.
- `replacedRow`: what becomes of a row when members are replaced.

## Main Statements

- `ChangeSet.RelatedTable.applyAll_replace`: the outcome of the steps that replace members.
- `ChangeSet.planUpdate_replaces`: an update that changes a to-many relationship replaces its
  members.
-/

namespace ResourceQuery

open Sql (Engine Database)
open MutationStep (applyAll)

variable {e : Engine}

/-- **A snapshot replaces the members of one relationship**, and asks for no other change. -/
structure Snapshot.OnlyReplaces (after before : Snapshot) (name : String) (old new : IdSet) :
    Prop where
  replaces : after.ChangesToMany (some before) name old new
  attributes : ∀ other value, ¬ after.ChangesAttribute (some before) other value
  toOne : ∀ other old new, ¬ after.ChangesToOne (some before) other old new
  toMany : ∀ other old new, after.ChangesToMany (some before) other old new → other = name

/-! ### Members -/

/-- **The members of a relationship**: the rows whose key holds an identifier are those of given
resources. -/
structure Members (rows : List (Sql.Row e)) (idColumn keyColumn : String) (id : ResourceId)
    (members : IdSet) : Prop where
  listed : ∀ row ∈ rows, row.holds keyColumn id = true →
    row.holdsOneOf idColumn members.ids = true
  stored : ∀ x ∈ members.ids, ∃ row ∈ rows,
    row.holds idColumn x = true ∧ row.holds keyColumn id = true

/-- **What becomes of a row when members are replaced**: a row that is only an old member is
released, a row that is only a new member refers to the resource, and all other rows stay as they
are. -/
def replacedRow (idColumn : String) (key : ForeignKey) (id : ResourceId) (old new : IdSet)
    (row : Sql.Row e) : Option (Sql.Row e) :=
  match row.holdsOneOf idColumn old.ids, row.holdsOneOf idColumn new.ids with
  | true, false => if key.nullable then some (Function.update row key.column none) else none
  | false, true => some (Function.update row key.column (e.parameter id.toValue))
  | _, _ => some row

namespace IdSet

theorem nodup (s : IdSet) : s.ids.Nodup := by
  refine s.sorted.imp fun {a b} before same => ?_
  subst same
  cases a with
  | int n => exact absurd before (Int.lt_irrefl _)
  | string s => exact absurd before (String.lt_irrefl s)

theorem nodup_without (s other : IdSet) : (s.without other).Nodup :=
  s.nodup.filter _

theorem mem_without {s other : IdSet} {id : ResourceId} :
    id ∈ s.without other ↔ id ∈ s.ids ∧ id ∉ other.ids := by
  simp [without]

/-- A row holds an identifier of one set and not of another. -/
theorem holdsOneOf_without (apart : e.TellsApart) (row : Sql.Row e) (column : String)
    (s other : IdSet) :
    row.holdsOneOf column (s.without other)
      = (row.holdsOneOf column s.ids && !row.holdsOneOf column other.ids) := by
  rw [Bool.eq_iff_iff, Bool.and_eq_true, Bool.not_eq_true', Bool.eq_false_iff]
  simp only [ne_eq, Sql.Row.holdsOneOf_iff, mem_without]
  constructor
  · rintro ⟨x, ⟨mem, notMem⟩, held⟩
    refine ⟨⟨x, mem, held⟩, ?_⟩
    rintro ⟨y, mem', held'⟩
    exact notMem (apart.eq_of_holds held held' ▸ mem')
  · rintro ⟨⟨x, mem, held⟩, none⟩
    exact ⟨x, ⟨mem, fun mem' => none ⟨x, mem', held⟩⟩, held⟩

end IdSet

/-! ### Steps for related resources -/

namespace ChangeSet.RelatedTable

variable {defaults : Sql.Row e} {db : Database e} (t : RelatedTable) {id : ResourceId}

/-- What becomes of a row when some members are taken away. -/
def releasing (ids : List ResourceId) : Sql.Row e → Option (Sql.Row e) :=
  takenAway t.idColumn ids t.key.column t.key.nullable

/-- What becomes of a row when some members are added. -/
def pointing (id : ResourceId) (ids : List ResourceId) (row : Sql.Row e) : Sql.Row e :=
  if row.holdsOneOf t.idColumn ids then
    Function.update row t.key.column (e.parameter id.toValue)
  else row

/-- **Taking members away**, if there are any to take. -/
theorem applyAll_release (ids : List ResourceId) :
    applyAll defaults (if ids.isEmpty then [] else [t.release ids]) db
      = if (db t.name).countP (fun row => row.holdsOneOf t.idColumn ids) = ids.length then
          some (Function.update db t.name ((db t.name).filterMap (t.releasing ids)))
        else none := by
  cases ids with
  | nil =>
    have same : t.releasing [] = (some : Sql.Row e → Option (Sql.Row e)) := by
      funext row
      simp [releasing, takenAway]
    simp [same, applyAll]
  | cons first rest =>
    rw [List.isEmpty_cons, if_neg Bool.false_ne_true, MutationStep.applyAll_singleton]
    simp only [MutationStep.applyTo, release, effect_clearOrDelete, RowExpectation.isMetBy,
      decide_eq_true_eq]
    rfl

/-- **Adding members**, if there are any to add. -/
theorem applyAll_pointTo (ids : List ResourceId) :
    applyAll defaults (if ids.isEmpty then [] else [t.pointTo id ids]) db
      = if (db t.name).countP (fun row => row.holdsOneOf t.idColumn ids) = ids.length then
          some (Function.update db t.name ((db t.name).map (t.pointing id ids)))
        else none := by
  cases ids with
  | nil =>
    have same : t.pointing id [] = fun row : Sql.Row e => row := by
      funext row
      simp [pointing]
    simp [same, applyAll]
  | cons first rest =>
    rw [List.isEmpty_cons, if_neg Bool.false_ne_true, MutationStep.applyAll_singleton]
    simp only [MutationStep.applyTo, pointTo, Sql.Statement.effect, isTrue_isOneOf,
      Sql.Row.write_singleton, RowExpectation.isMetBy, decide_eq_true_eq]
    rfl

/-! ### Replacing members -/

variable {old new : IdSet}

/-- The two steps together are what becomes of each row. -/
theorem map_pointing_releasing (apart : e.TellsApart) (separate : t.key.column ≠ t.idColumn)
    (row : Sql.Row e) :
    (t.releasing (old.without new) row).map (t.pointing id (new.without old))
      = replacedRow t.idColumn t.key id old new row := by
  have identified : ∀ v, Function.update row t.key.column v t.idColumn = row t.idColumn :=
    fun v => Function.update_of_ne (Ne.symm separate) v row
  unfold releasing takenAway pointing replacedRow
  simp only [IdSet.holdsOneOf_without apart]
  cases wasMember : row.holdsOneOf t.idColumn old.ids <;>
    cases isMember : row.holdsOneOf t.idColumn new.ids
  · simp [wasMember, isMember]
  · simp [wasMember, isMember]
  · cases nullable : t.key.nullable with
    | false => simp
    | true =>
      have same := Sql.Row.holdsOneOf_congr new.ids (identified none)
      simp [same, isMember]
  · simp [wasMember]

/-- Rows of new members are not taken away, and no rows are added. -/
theorem exists_releasing_iff (apart : e.TellsApart) (separate : t.key.column ≠ t.idColumn)
    {rows : List (Sql.Row e)} {x : ResourceId} (mem : x ∈ new.ids) :
    (∃ row ∈ rows.filterMap (t.releasing (old.without new)), row.holds t.idColumn x = true)
      ↔ ∃ row ∈ rows, row.holds t.idColumn x = true := by
  constructor
  · rintro ⟨row', listed, held⟩
    obtain ⟨row, listed, kept⟩ := List.mem_filterMap.mp listed
    exact ⟨row, listed, Sql.Row.holds_congr x (eq_of_takenAway kept separate) ▸ held⟩
  · rintro ⟨row, listed, held⟩
    have isMember : row.holdsOneOf t.idColumn new.ids = true :=
      Sql.Row.holdsOneOf_iff.mpr ⟨x, mem, held⟩
    refine ⟨row, List.mem_filterMap.mpr ⟨row, listed, ?_⟩, held⟩
    simp [releasing, takenAway, IdSet.holdsOneOf_without apart, isMember]

/-- **The outcome of the steps that replace members**: they can be applied if and only if all new
members exist, and then each row becomes what it should. -/
theorem applyAll_replace (apart : e.TellsApart) (separate : t.key.column ≠ t.idColumn)
    (unique : e.Distinct (db t.name) t.idColumn)
    (members : Members (db t.name) t.idColumn t.key.column id old) :
    applyAll defaults (t.replace id (old.without new) (new.without old)) db
      = if ∀ x ∈ new.ids, x ∉ old.ids → ∃ row ∈ db t.name, row.holds t.idColumn x = true then
          some (Function.update db t.name
            ((db t.name).filterMap (replacedRow t.idColumn t.key id old new)))
        else none := by
  -- Old members exist, so taking some of them away succeeds.
  have released := (unique.countP_holdsOneOf_eq_length apart (old.nodup_without new)).mpr
    fun x mem => by
      obtain ⟨row, listed, held, -⟩ := members.stored x (IdSet.mem_without.mp mem).1
      exact ⟨row, listed, held⟩
  have distinct : e.Distinct ((db t.name).filterMap (t.releasing (old.without new))) t.idColumn :=
    unique.filterMap fun _ _ kept => .inl (eq_of_takenAway kept separate)
  have remaining : (∀ x ∈ new.without old, ∃ row ∈ (db t.name).filterMap
        (t.releasing (old.without new)), row.holds t.idColumn x = true)
      ↔ ∀ x ∈ new.ids, x ∉ old.ids → ∃ row ∈ db t.name, row.holds t.idColumn x = true := by
    simp only [IdSet.mem_without, and_imp]
    exact forall₂_congr fun x mem =>
      imp_congr_right fun _ => t.exists_releasing_iff apart separate mem
  unfold replace
  rw [MutationStep.applyAll_append, applyAll_release, if_pos released, Option.bind_some,
    applyAll_pointTo]
  simp only [Function.update_self, Function.update_idem,
    distinct.countP_holdsOneOf_eq_length apart (new.nodup_without old), remaining,
    List.map_filterMap, map_pointing_releasing t apart separate]

end ChangeSet.RelatedTable

/-- **The new members are those that were asked for**, if all of them exist. -/
theorem Members.replaced (apart : e.TellsApart) {rows : List (Sql.Row e)} {idColumn : String}
    {key : ForeignKey} {id : ResourceId} {old new : IdSet} (separate : key.column ≠ idColumn)
    (members : Members rows idColumn key.column id old)
    (exist : ∀ x ∈ new.ids, x ∉ old.ids → ∃ row ∈ rows, row.holds idColumn x = true) :
    Members (rows.filterMap (replacedRow idColumn key id old new)) idColumn key.column id new := by
  have identified : ∀ (row : Sql.Row e) v,
      Function.update row key.column v idColumn = row idColumn :=
    fun row v => Function.update_of_ne (Ne.symm separate) v row
  constructor
  · intro row' listed refers
    obtain ⟨row, listed, kept⟩ := List.mem_filterMap.mp listed
    unfold replacedRow at kept
    split at kept
    · -- An old member that stays refers to nothing.
      split at kept
      · cases kept
        simp [Sql.Row.holds] at refers
      · cases kept
    · rename_i isMember
      cases kept
      rw [Sql.Row.holdsOneOf_congr new.ids (identified row _), isMember]
    · rename_i stays _
      cases kept
      have wasMember := members.listed row' listed refers
      exact Bool.of_not_eq_false (stays wasMember)
  · intro x mem
    have isMember {row : Sql.Row e} (held : row.holds idColumn x = true) :
        row.holdsOneOf idColumn new.ids = true := Sql.Row.holdsOneOf_iff.mpr ⟨x, mem, held⟩
    by_cases was : x ∈ old.ids
    · obtain ⟨row, listed, held, refers⟩ := members.stored x was
      have wasMember : row.holdsOneOf idColumn old.ids = true :=
        Sql.Row.holdsOneOf_iff.mpr ⟨x, was, held⟩
      refine ⟨row, List.mem_filterMap.mpr ⟨row, listed, ?_⟩, held, refers⟩
      simp [replacedRow, wasMember, isMember held]
    · obtain ⟨row, listed, held⟩ := exist x mem was
      have notMember : row.holdsOneOf idColumn old.ids = false := by
        rw [Bool.eq_false_iff, ne_eq, Sql.Row.holdsOneOf_iff]
        rintro ⟨y, mem', held'⟩
        exact was (apart.eq_of_holds held held' ▸ mem')
      refine ⟨Function.update row key.column (e.parameter id.toValue),
        List.mem_filterMap.mpr ⟨row, listed, ?_⟩, ?_, ?_⟩
      · simp [replacedRow, notMember, isMember held]
      · rw [Sql.Row.holds_congr x (identified row _), held]
      · exact apart.holds_of_eq (Function.update_self key.column _ row)

/-! ### Updates -/

namespace ChangeSet

variable {schema : Schema} {resourceType name : String} {before after : Snapshot}
variable {changes : ChangeSet} {old new : IdSet}

/-- The change of one to-many relationship is the only one that is detected. -/
theorem detect_onlyReplaces
    (detected : detect schema resourceType (some before) after = .ok changes)
    (only : after.OnlyReplaces before name old new) :
    changes = ofParts resourceType changes.resourceId? [] [.toMany ⟨name, old, new⟩] := by
  obtain ⟨info, fields, columns, found, known, checked, -, walked, compared, rfl⟩ :=
    detect_eq_ok_iff.mp detected
  obtain ⟨relationship, declared, toMany⟩ := toMany_of_checkNames checked only.replaces.1
  cases walked.symm.trans (changedColumns_eq_nil only.attributes only.toOne fields)
  have single : relationshipChanges schema resourceType (some before) after
      info.relationships.entries = .ok [.toMany ⟨name, old, new⟩] := by
    refine relationshipChanges_eq_singleton info.relationships.keys_nodup
      (mem_entries_of_relationship known declared) ?_ fun r _ different =>
        relationshipChange?_eq_none r.2 (only.toOne r.1)
          fun old new changed => different (only.toMany r.1 old new changed)
    rw [relationshipChange?, if_pos toMany, toManyChange?_eq_some only.replaces]
  cases compared.symm.trans single
  rfl

/-- The steps of an update that changes one to-many relationship are those that replace its
members. -/
theorem planUpdate_onlyReplaces {id : ResourceId} {table : RelatedTable}
    (detected : detect schema resourceType (some before) after = .ok changes)
    (only : after.OnlyReplaces before name old new) (identified : changes.resourceId? = some id)
    (related : relatedTable schema resourceType name = .ok table) :
    changes.planUpdate schema = .ok (table.replace id (old.without new) (new.without old)) := by
  obtain ⟨info, _, _, _, known, -⟩ := detect_eq_ok_iff.mp detected
  rw [detect_onlyReplaces detected only, identified]
  refine planUpdate_eq_ok_iff.mpr ⟨rfl, id, [], info, _, rfl, rfl, known, ?_, rfl⟩
  show relatedSteps schema resourceType id [(name, old.without new, new.without old)] = _
  simp only [relatedSteps, related, bind, Except.bind, List.append_nil]
  rfl

/-- **Replacing a to-many relationship does exactly that.**  Take an update of a resource whose only
change is that of a to-many relationship from some members to others, where the table of the target
stores the foreign key, and a database in which the members are the old ones.  The planned steps can
be applied if and only if all new members exist; then the members are the new ones, rows that were
members and no longer are lose their key, or are deleted if they cannot be without it, rows that are
members now and were not get the key, and everything else stays as it is. -/
theorem planUpdate_replaces (apart : e.TellsApart) {relationship : Relationship}
    {key : ForeignKey} {target : ResourceType} {id : ResourceId}
    (detected : detect schema resourceType (some before) after = .ok changes)
    (only : after.OnlyReplaces before name old new) (identified : changes.resourceId? = some id)
    (declared : schema.relationship resourceType name = .ok relationship)
    (resolved : schema.foreignKeyOf resourceType name = .ok key) (owned : key.ownedBy = .right)
    (known : schema.resourceType relationship.target = .ok target)
    (separate : key.column ≠ target.idColumn) (defaults : Sql.Row e) (db : Database e)
    (unique : e.Distinct (db target.tableName) target.idColumn)
    (members : Members (db target.tableName) target.idColumn key.column id old) :
    ∃ steps, changes.planUpdate schema = .ok steps
      ∧ ((∃ final, applyAll defaults steps db = some final)
        ↔ ∀ x ∈ new.ids, x ∉ old.ids →
          ∃ row ∈ db target.tableName, row.holds target.idColumn x = true)
      ∧ ∀ final, applyAll defaults steps db = some final →
        Members (final target.tableName) target.idColumn key.column id new
          ∧ final = Function.update db target.tableName
            ((db target.tableName).filterMap (replacedRow target.idColumn key id old new)) := by
  let table : RelatedTable := ⟨target.tableName, target.idColumn, key⟩
  have related : relatedTable schema resourceType name = .ok table :=
    relatedTable_eq_ok_iff.mpr ⟨relationship, target, declared, resolved, owned, known, rfl, rfl⟩
  have outcome : applyAll defaults (table.replace id (old.without new) (new.without old)) db
      = if ∀ x ∈ new.ids, x ∉ old.ids →
            ∃ row ∈ db target.tableName, row.holds target.idColumn x = true then
          some (Function.update db target.tableName
            ((db target.tableName).filterMap (replacedRow target.idColumn key id old new)))
        else none :=
    table.applyAll_replace apart separate unique members
  refine ⟨_, planUpdate_onlyReplaces detected only identified related, ?_, fun final applied => ?_⟩
  · rw [outcome]
    split
    · rename_i exist
      exact ⟨fun _ => exist, fun _ => ⟨_, rfl⟩⟩
    · rename_i missing
      exact ⟨nofun, fun exist => absurd exist missing⟩
  · rw [outcome] at applied
    split at applied
    · rename_i exist
      cases applied
      rw [Function.update_self]
      exact ⟨members.replaced apart separate exist, rfl⟩
    · cases applied

/-- An item with two tags. -/
def itemBefore : Snapshot :=
  { Snapshot.empty with
    id? := some (.int 1), toMany := Dict.ofList [("tags", IdSet.ofList [.int 1, .int 3])] }

/-- The item with another tag in place of the first. -/
def itemAfter : Snapshot :=
  { Snapshot.empty with toMany := Dict.ofList [("tags", IdSet.ofList [.int 2, .int 3])] }

/-- The first of the two items gets the tag of the second one for its own first tag. -/
theorem planUpdate_replaces_tags :
    itemAfter.OnlyReplaces itemBefore "tags" (IdSet.ofList [.int 1, .int 3])
        (IdSet.ofList [.int 2, .int 3])
      ∧ Members (Tagged.database "Tags") "Id" "TodoItemId" (.int 1) (IdSet.ofList [.int 1, .int 3])
      ∧ ∃ changes steps final,
        detect Schema.todo "todoItems" (some itemBefore) itemAfter = .ok changes
        ∧ changes.planUpdate Schema.todo = .ok steps
        ∧ applyAll (Outline.row []) steps Tagged.database = some final
        ∧ Members (final "Tags") "Id" "TodoItemId" (.int 1) (IdSet.ofList [.int 2, .int 3])
        ∧ final "Tags" = [Function.update (Tagged.tag 1 "Important" 1) "TodoItemId" none,
          Function.update (Tagged.tag 2 "Family" 2) "TodoItemId" (some (.int 1)),
          Tagged.tag 3 "Personal" 1]
        ∧ final "TodoItems" = Tagged.database "TodoItems" := by
  have detected : detect Schema.todo "todoItems" (some itemBefore) itemAfter
      = .ok (ofParts "todoItems" (some (.int 1)) []
        [.toMany ⟨"tags", IdSet.ofList [.int 1, .int 3], IdSet.ofList [.int 2, .int 3]⟩]) := by
    decide +kernel
  have mentioned : itemAfter.toMany.entries = [("tags", IdSet.ofList [.int 2, .int 3])] := by
    decide +kernel
  have only : itemAfter.OnlyReplaces itemBefore "tags" (IdSet.ofList [.int 1, .int 3])
      (IdSet.ofList [.int 2, .int 3]) := by
    refine ⟨⟨by decide +kernel, by decide +kernel, by decide +kernel⟩, ?_, ?_, ?_⟩
    · rintro other value ⟨⟨⟩, -⟩
    · rintro other old new ⟨⟨⟩, -⟩
    · rintro other old new ⟨set, -⟩
      have mem := Dict.mem_entries_iff.mpr set
      rw [mentioned, List.mem_singleton] at mem
      exact congrArg Prod.fst mem
  have declared : Schema.todo.relationship "todoItems" "tags"
      = .ok ⟨"tags", .many, ⟨.right, "TodoItemId"⟩, some "todoItem"⟩ := by decide +kernel
  have resolved : Schema.todo.foreignKeyOf "todoItems" "tags"
      = .ok ⟨.right, "TodoItemId", true⟩ := by decide +kernel
  have known : Schema.todo.resourceType "tags" = .ok Schema.Todo.tags := by decide +kernel
  have members : Members (Tagged.database "Tags") "Id" "TodoItemId" (.int 1)
      (IdSet.ofList [.int 1, .int 3]) := ⟨by decide +kernel, by decide +kernel⟩
  obtain ⟨steps, planned, succeeds, replaced⟩ :=
    planUpdate_replaces Engine.tellsApart_outline detected only rfl declared resolved rfl known
      (by decide) (Outline.row []) Tagged.database (by decide +kernel) members
  obtain ⟨final, applied⟩ := succeeds.mpr (by decide +kernel)
  obtain ⟨members', outcome⟩ := replaced final applied
  refine ⟨only, members, _, steps, final, detected, planned, applied, members', ?_, ?_⟩
  · rw [outcome]
    rfl
  · rw [outcome]
    rfl

end ChangeSet

end ResourceQuery
