import ResourceQuery.Proofs.Repository.AllOrNothing
import ResourceQuery.Proofs.Schema.Tables
import ResourceQuery.Proofs.Sql.Repairing
import ResourceQuery.Store.Scripted

/-!
# Bad requests and the database

A request that is refused should not have reached the database.  Queries, updates and deletions are
planned as a whole before the first call, so for them this is so.  A creation plans the steps that
need the new identifier when the row is there already, and what is wrong with them is noticed late.

## Main Definitions

- `Repository.Untouched`: a bad request made no call.
- `ChangeSet.Unassignable`: related resources that cannot be made to refer to a new one.
- `Repository.Inserted`: the row of a new resource was added.

## Main Statements

- `ChangeSet.planAfterCreate_fails_iff`: when the steps after the insertion cannot be planned.
- `Repository.untouched_iff_not_inserted`: bad requests make no calls, except for creations of
  unassignable resources whose row was added.
- `Repository.not_untouched_article`: such a creation.
-/

namespace ResourceQuery

open ResourceQuery.MutationStep ResourceQuery.Action

/-! ### Related resources of a new resource -/

namespace ChangeSet

variable {schema : Schema} {resourceType : String} {after : Snapshot}

/-- **Related resources that cannot be made to refer to a new one**: a to-many relationship is set,
and there is no table of related resources that stores its foreign key. -/
def Unassignable (schema : Schema) (resourceType : String) (after : Snapshot) : Prop :=
  ∃ name ids error, after.toMany.get? name = some ids ∧ ids ≠ IdSet.empty
    ∧ relatedTable schema resourceType name = .error error

/-- A missing table is the fault of the request. -/
theorem isInternal_of_relatedTable {name : String} {error : CompileError}
    (missing : relatedTable schema resourceType name = .error error) :
    error.isInternal = false := by
  unfold relatedTable at missing
  cases declared : schema.relationship resourceType name with
  | error e =>
    rw [declared] at missing
    cases missing
    rfl
  | ok info =>
    cases found : schema.foreignKeyOf resourceType name with
    | error e =>
      rw [declared, found] at missing
      cases missing
      rfl
    | ok key =>
      rw [declared, found] at missing
      simp only [CompileError.ofLookup, bind, Except.bind] at missing
      split at missing
      · cases target : schema.resourceType info.target with
        | error e =>
          rw [target] at missing
          cases missing
          rfl
        | ok info =>
          rw [target] at missing
          cases missing
      · cases missing
        rfl

/-- A foreign key that the target stores stands in a table of related resources. -/
theorem relatedTable_of_right {name : String} {key : ForeignKey}
    (found : schema.foreignKeyOf resourceType name = .ok key) (owned : key.ownedBy = .right) :
    ∃ table, relatedTable schema resourceType name = .ok table := by
  obtain ⟨_, info, -, declared, -, -, owner, -, -, -, place⟩ := Schema.foreignKeyOf_ok found
  rw [owned] at place
  refine ⟨⟨owner.tableName, owner.idColumn, key⟩, ?_⟩
  unfold relatedTable
  simp only [declared, found, CompileError.ofLookup, bind, Except.bind, owned, if_true]
  simp only [show schema.resourceType info.target = .ok owner from place]
  rfl

/-- **Steps for related resources can be planned** if and only if each relationship has a table. -/
theorem relatedSteps_ok_iff {id : ResourceId}
    (changes : List (String × List ResourceId × List ResourceId)) :
    (∃ steps, relatedSteps schema resourceType id changes = .ok steps)
      ↔ ∀ change ∈ changes, ∃ table, relatedTable schema resourceType change.1 = .ok table := by
  induction changes with
  | nil => exact ⟨fun _ _ mem => absurd mem List.not_mem_nil, fun _ => ⟨[], rfl⟩⟩
  | cons change rest ih =>
    obtain ⟨name, removed, added⟩ := change
    rw [List.forall_mem_cons, ← ih]
    constructor
    · rintro ⟨steps, planned⟩
      obtain ⟨table, found, planned⟩ := Sql.exists_of_bind_ok planned
      obtain ⟨others, later, -⟩ := Sql.exists_of_bind_ok planned
      exact ⟨⟨table, found⟩, ⟨others, later⟩⟩
    · rintro ⟨⟨table, found⟩, ⟨others, later⟩⟩
      refine ⟨table.replace id removed added ++ others, ?_⟩
      show (relatedTable schema resourceType name >>= _) = _
      rw [found]
      show (relatedSteps schema resourceType id rest >>= _) = _
      rw [later]
      rfl

/-- The first relationship without a table is reported. -/
theorem relatedSteps_error {id : ResourceId} {error : CompileError}
    {changes : List (String × List ResourceId × List ResourceId)}
    (failed : relatedSteps schema resourceType id changes = .error error) :
    ∃ change ∈ changes, relatedTable schema resourceType change.1 = .error error := by
  induction changes with
  | nil => cases failed
  | cons change rest ih =>
    obtain ⟨name, removed, added⟩ := change
    change (relatedTable schema resourceType name >>= _) = _ at failed
    cases found : relatedTable schema resourceType name with
    | error e =>
      rw [found] at failed
      cases failed
      exact ⟨_, List.mem_cons_self, found⟩
    | ok table =>
      rw [found] at failed
      change (relatedSteps schema resourceType id rest >>= _) = _ at failed
      cases later : relatedSteps schema resourceType id rest with
      | error e =>
        rw [later] at failed
        cases failed
        obtain ⟨change, mem, missing⟩ := ih later
        exact ⟨change, List.mem_cons_of_mem _ mem, missing⟩
      | ok others =>
        rw [later] at failed
        cases failed

/-! ### Detected changes -/

/-- Each change is that of a relationship. -/
theorem mem_relationshipChanges {before? : Option Snapshot}
    {relationships : List (String × Relationship)} {changes : List RelationshipChange}
    (detected : relationshipChanges schema resourceType before? after relationships = .ok changes)
    (change : RelationshipChange) :
    change ∈ changes ↔ ∃ r ∈ relationships,
      relationshipChange? schema resourceType before? after r.1 r.2 = .ok (some change) := by
  induction relationships generalizing changes with
  | nil =>
    cases detected
    simp
  | cons head rest ih =>
    obtain ⟨name, relationship⟩ := head
    obtain ⟨change?, first, detected⟩ := Sql.exists_of_bind_ok detected
    obtain ⟨others, later, detected⟩ := Sql.exists_of_bind_ok detected
    cases detected
    rw [List.mem_append, ih later, Option.mem_toList]
    simp only [List.mem_cons, exists_eq_or_imp, first, Except.ok.injEq]

/-- A to-one relationship changes in the table of the resource itself, or in that of its target,
depending on where its foreign key is. -/
theorem toOneChange_ok {name : String} {relationship : Relationship}
    {old new : Option ResourceId} {change : RelationshipChange}
    (compared : toOneChange schema resourceType name relationship old new = .ok change) :
    (∃ taken? cleared?, change = .own taken? cleared?)
      ∨ change = .atRight ⟨name, old, new⟩
        ∧ ∃ table, relatedTable schema resourceType name = .ok table := by
  obtain ⟨key, found, compared⟩ := Sql.exists_of_bind_ok compared
  cases owned : key.ownedBy with
  | left =>
    rw [owned] at compared
    obtain ⟨exclusive, -, compared⟩ := Sql.exists_of_bind_ok compared
    cases compared
    exact .inl ⟨_, _, rfl⟩
  | right =>
    rw [owned] at compared
    cases compared
    exact .inr ⟨rfl, relatedTable_of_right found owned⟩

/-- **A changed relationship is compared by its cardinality.** -/
theorem relationshipChange?_cases {before? : Option Snapshot} {name : String}
    {relationship : Relationship} {change : RelationshipChange}
    (compared : relationshipChange? schema resourceType before? after name relationship
      = .ok (some change)) :
    toManyChange? before? after name = some change
      ∨ ∃ old new, toOneChange schema resourceType name relationship old new = .ok change := by
  unfold relationshipChange? at compared
  split at compared
  · exact .inl (Except.ok.inj compared)
  split at compared
  · cases compared
  · rename_i old new _
    cases outcome : toOneChange schema resourceType name relationship old new with
    | error e =>
      rw [outcome] at compared
      cases compared
    | ok found =>
      rw [outcome] at compared
      cases compared
      exact .inr ⟨old, new, outcome⟩

theorem toMany_of_toManyChange? {before? : Option Snapshot} {name : String}
    {change : RelationshipChange} (compared : toManyChange? before? after name = some change) :
    ∃ c, change = .toMany c := by
  obtain ⟨new, -, compared⟩ := Option.bind_eq_some_iff.mp compared
  dsimp only at compared
  split at compared
  · cases compared
  · cases compared
    exact ⟨_, rfl⟩

/-- A to-many relationship of a new resource changes if it is set to any resources. -/
theorem toManyChange?_none {name : String} {change : ToManyChange} :
    toManyChange? none after name = some (.toMany change)
      ↔ ∃ ids, after.toMany.get? name = some ids ∧ ids ≠ IdSet.empty
        ∧ change = ⟨name, IdSet.empty, ids⟩ := by
  unfold toManyChange?
  cases after.toMany.get? name with
  | none => simp
  | some ids =>
    by_cases none : IdSet.empty = ids
    · subst none
      simp
    · simp [Ne.symm none, eq_comm]

/-- The to-many relationships that a successful check of names allows are declared as such. -/
theorem checkAll_ok {check : String → Except CompileError Unit} {names : List String}
    (checked : checkAll check names = .ok ()) : ∀ name ∈ names, check name = .ok () := by
  induction names with
  | nil => exact fun _ mem => absurd mem List.not_mem_nil
  | cons head rest ih =>
    obtain ⟨⟨⟩, first, later⟩ := Sql.exists_of_bind_ok checked
    rw [List.forall_mem_cons]
    exact ⟨first, ih later⟩

/-- The relationship under a name is among the entries of its resource type. -/
theorem mem_entries_of_relationship {info : ResourceType} {name : String}
    {relationship : Relationship} (known : schema.resourceType resourceType = .ok info)
    (declared : schema.relationship resourceType name = .ok relationship) :
    (name, relationship) ∈ info.relationships.entries := by
  obtain ⟨_, known', stored⟩ := Schema.relationship_eq_ok_iff.mp declared
  cases known.symm.trans known'
  exact Dict.mem_entries_iff.mpr stored

theorem lookup_of_ofLookup {α : Type} {found : Except LookupError α} {a : α}
    (h : CompileError.ofLookup found = .ok a) : found = .ok a := by
  cases found with
  | error e => cases h
  | ok b =>
    cases h
    rfl

/-- **What a detection of changes goes by**: the names are checked, and the relationships of the
resource type compared. -/
theorem detect_ok {before? : Option Snapshot} {changes : ChangeSet}
    (detected : detect schema resourceType before? after = .ok changes) :
    ∃ info found, schema.resourceType resourceType = .ok info
      ∧ checkNames schema resourceType info after = .ok ()
      ∧ relationshipChanges schema resourceType before? after info.relationships.entries
        = .ok found
      ∧ changes.resourceType = resourceType
      ∧ (∀ change, change ∈ changes.toOneAtRight ↔ .atRight change ∈ found)
      ∧ ∀ change, change ∈ changes.toMany ↔ .toMany change ∈ found := by
  obtain ⟨info, known, detected⟩ := Sql.exists_of_bind_ok detected
  obtain ⟨⟨⟩, checked, detected⟩ := Sql.exists_of_bind_ok detected
  obtain ⟨fields, -, detected⟩ := Sql.exists_of_bind_ok detected
  obtain ⟨columns, -, detected⟩ := Sql.exists_of_bind_ok detected
  obtain ⟨found, compared, detected⟩ := Sql.exists_of_bind_ok detected
  cases detected
  refine ⟨info, found, lookup_of_ofLookup known, checked, lookup_of_ofLookup compared, rfl, ?_, ?_⟩
  · intro change
    rw [List.mem_filterMap]
    constructor
    · rintro ⟨c, mem, same⟩
      cases c <;> cases same
      exact mem
    · exact fun mem => ⟨_, mem, rfl⟩
  · intro change
    rw [List.mem_filterMap]
    constructor
    · rintro ⟨c, mem, same⟩
      cases c <;> cases same
      exact mem
    · exact fun mem => ⟨_, mem, rfl⟩

/-- **The to-many relationships of a new resource that change** are those that it sets to any
resources. -/
theorem exists_toMany_iff {changes : ChangeSet}
    (detected : detect schema resourceType none after = .ok changes) (name : String) :
    (∃ change ∈ changes.toMany, change.relationship = name)
      ↔ ∃ ids, after.toMany.get? name = some ids ∧ ids ≠ IdSet.empty := by
  obtain ⟨info, found, known, checked, compared, -, -, many⟩ := detect_ok detected
  constructor
  · rintro ⟨change, mem, rfl⟩
    obtain ⟨r, -, changed⟩ := (mem_relationshipChanges compared _).mp ((many change).mp mem)
    rcases relationshipChange?_cases changed with changed | ⟨old, new, changed⟩
    · obtain ⟨ids, set, some, rfl⟩ := toManyChange?_none.mp changed
      exact ⟨ids, set, some⟩
    · rcases toOneChange_ok changed with ⟨_, _, same⟩ | ⟨same, -⟩ <;> cases same
  · rintro ⟨ids, set, some⟩
    obtain ⟨-, -, checked⟩ := Sql.exists_of_bind_ok checked
    obtain ⟨-, -, checked⟩ := Sql.exists_of_bind_ok checked
    obtain ⟨relationship, declared, toMany⟩ :=
      Sql.exists_of_bind_ok (checkAll_ok checked name (Dict.mem_keys_of_get? set))
    have declared := lookup_of_ofLookup declared
    have isMany : relationship.isToMany = true := by
      by_contra no
      rw [if_neg no] at toMany
      cases toMany
    refine ⟨⟨name, IdSet.empty, ids⟩, (many _).mpr ((mem_relationshipChanges compared _).mpr
      ⟨(name, relationship), mem_entries_of_relationship known declared, ?_⟩), rfl⟩
    unfold relationshipChange?
    rw [if_pos isMany, toManyChange?_none.mpr ⟨ids, set, some, rfl⟩]

/-- **The steps after the insertion cannot be planned** if and only if there are related resources
that cannot be made to refer to the new one.  To-one relationships were looked up when they were
compared, so they are never to blame. -/
theorem planAfterCreate_fails_iff {changes : ChangeSet} {id : ResourceId}
    (detected : detect schema resourceType none after = .ok changes) :
    (∃ error, changes.planAfterCreate schema id = .error error)
      ↔ Unassignable schema resourceType after := by
  obtain ⟨info, found, known, checked, compared, type, atRight, -⟩ := detect_ok detected
  have names := exists_toMany_iff detected
  constructor
  · rintro ⟨error, failed⟩
    obtain ⟨change, mem, missing⟩ := relatedSteps_error failed
    rw [type] at missing
    rcases List.mem_append.mp mem with mem | mem
    · obtain ⟨c, listed, rfl⟩ := List.mem_map.mp mem
      obtain ⟨r, -, changed⟩ := (mem_relationshipChanges compared _).mp ((atRight c).mp listed)
      rcases relationshipChange?_cases changed with changed | ⟨old, new, changed⟩
      · obtain ⟨_, same⟩ := toMany_of_toManyChange? changed
        cases same
      rcases toOneChange_ok changed with ⟨_, _, same⟩ | ⟨same, table, present⟩
      · cases same
      · cases same
        rw [present] at missing
        cases missing
    · obtain ⟨c, listed, rfl⟩ := List.mem_map.mp mem
      obtain ⟨ids, set, some⟩ := (names c.relationship).mp ⟨c, listed, rfl⟩
      exact ⟨c.relationship, ids, error, set, some, missing⟩
  · rintro ⟨name, ids, error, set, some, missing⟩
    obtain ⟨c, mem, rfl⟩ := (names name).mpr ⟨ids, set, some⟩
    cases planned : changes.planAfterCreate schema id with
    | error e => exact ⟨e, rfl⟩
    | ok steps =>
      have listed : (c.relationship, c.removed, c.added) ∈ changes.relatedChanges :=
        List.mem_append_right _ (List.mem_map.mpr ⟨c, mem, rfl⟩)
      obtain ⟨table, present⟩ := (relatedSteps_ok_iff _).mp ⟨steps, planned⟩ _ listed
      rw [type, missing] at present
      cases present

end ChangeSet

/-! ### Who is to blame -/

/-- A failure of the database is not the fault of the request. -/
theorem RepositoryError.ofStore_ne_badRequest (failure : StoreError) (error : CompileError) :
    ofStore failure ≠ .badRequest error := by
  cases failure <;> exact RepositoryError.noConfusion

theorem StoreError.ReportedBy.ne_badRequest {failure : StoreError} {reported : RepositoryError}
    (report : failure.ReportedBy reported) (error : CompileError) :
    reported ≠ .badRequest error := by
  rintro rfl
  rcases report with ⟨cause, -, same⟩ | ⟨-, same⟩ <;> cases same

/-! ### Calls of bad requests -/

namespace Repository

variable {σ α π : Type}

/-- **A bad request left the database alone**: it made no call. -/
def Untouched (calls : List Store.Event) (result : Except RepositoryError α) : Prop :=
  ∀ error, result = .error (.badRequest error) → calls = []

/-- **The row of a new resource was added**: the transaction was begun, all steps up to the
insertion were accepted, and the identifier that it returned can be used. -/
def Inserted (plan : CreatePlan) (calls : List Store.Event) : Prop :=
  ∃ first event rest value? id, calls = ⟨.start, .ok ()⟩ :: (first ++ event :: rest)
    ∧ AllAccepted plan.beforeInsert first ∧ plan.insert.Accepted event value?
    ∧ value?.bind ResourceId.ofValue? = some id

/-- A read of planned queries fails because of the database only. -/
theorem does_runQueries (store : Store σ) (plan : QueryPlan) :
    (run (plan.run store)).Does (fun _ result => ∀ error, result ≠ .error (.badRequest error)) := by
  have failed {α : Type} (failure : StoreError) :
      ∀ error, (Except.error failure : Except StoreError α).mapError RepositoryError.ofStore
        ≠ .error (.badRequest error) :=
    fun error same => RepositoryError.ofStore_ne_badRequest failure error (Except.error.inj same)
  refine Does.mapError (Does.bind (P := fun _ _ => True) ?_ (fun _ e _ => failed e) ?_)
  · unfold QueryPlan.runCount
    split
    · exact does_pure trivial
    · exact (store.does_send _).bind (fun _ _ _ => trivial) (fun _ _ _ => does_pure trivial)
  · intro events total? _
    refine (store.does_send _).bind (fun _ e _ => failed e) (fun _ rows _ => ?_)
    exact does_count_bind (does_pure fun error same => by cases same)

/-- **Queries are planned before the first call.** -/
theorem does_query_untouched (repository : Repository σ) (request : Request) :
    (repository.query request).Does Untouched := by
  unfold query
  cases request.compile repository.schema repository.settings with
  | error e => exact does_throw fun _ _ => rfl
  | ok plan =>
    refine (does_runQueries repository.store plan).mono ?_
    exact fun calls result never error same => absurd same (never error)

/-- **A write that is refused** made no call, or its statements came to a halt because of the
request and were undone. -/
theorem Course.untouched_or_stopped {plan : Except CompileError π}
    {Completed : π → List Store.Event → α → Prop}
    {Stopped : π → List Store.Event → RepositoryError → Prop} {calls : List Store.Event}
    {result : Except RepositoryError α} (course : Course plan Completed Stopped calls result) :
    Untouched calls result
      ∨ ∃ p sent error reply, plan = .ok p ∧ Stopped p sent (.badRequest error)
        ∧ calls = ⟨.start, .ok ()⟩ :: sent ++ [⟨.rollback, reply⟩] := by
  cases course with
  | unplanned failed => exact .inl fun _ _ => rfl
  | unstarted planned reported | unkept planned completed reported =>
    refine .inl fun error refused => ?_
    exact absurd (Except.error.inj refused) (reported.ne_badRequest error)
  | kept planned completed => exact .inl fun error refused => by cases refused
  | @undone p sent failure reply planned stopped =>
    by_cases refused : ∃ error, failure = .badRequest error
    · obtain ⟨error, rfl⟩ := refused
      exact .inr ⟨p, sent, error, reply, planned, stopped, rfl⟩
    · exact .inl fun error same => absurd ⟨error, Except.error.inj same⟩ refused

/-- Steps that were planned beforehand are halted by the database only. -/
theorem Course.untouched_of_halted {plan : Except CompileError π} {steps : π → List MutationStep}
    {Completed : π → List Store.Event → α → Prop} {calls : List Store.Event}
    {result : Except RepositoryError α}
    (course : Course plan Completed (fun p => Halted (steps p)) calls result) :
    Untouched calls result := by
  rcases course.untouched_or_stopped with untouched | ⟨p, sent, error, reply, -, stopped, -⟩
  · exact untouched
  · obtain ⟨failure, -, reported⟩ := stopped
    exact absurd rfl (reported.ne_badRequest error)

/-! ### Creations -/

section Creations

variable {schema : Schema} {resourceType : String} {after : Snapshot}

theorem detect_of_planCreate {plan : ChangeSet × CreatePlan}
    (planned : planCreate schema resourceType after = .ok plan) :
    ChangeSet.detect schema resourceType none after = .ok plan.1 := by
  obtain ⟨changes, detected, planned⟩ := Sql.exists_of_bind_ok planned
  obtain ⟨steps, -, planned⟩ := Sql.exists_of_bind_ok planned
  cases planned
  exact detected

/-- **A creation is refused late for one reason only**: its row was added, and there are related
resources that cannot be made to refer to it.  Then it is undone. -/
theorem CreationStopped.unassignable {plan : ChangeSet × CreatePlan} {sent : List Store.Event}
    {error : CompileError} (planned : planCreate schema resourceType after = .ok plan)
    (stopped : CreationStopped schema plan sent (.badRequest error))
    (reply : Except StoreError Unit) :
    ChangeSet.Unassignable schema resourceType after
      ∧ Inserted plan.2 (⟨.start, .ok ()⟩ :: sent ++ [⟨.rollback, reply⟩]) := by
  generalize refused : RepositoryError.badRequest error = reported at stopped
  cases stopped with
  | early _ reported => exact absurd refused.symm (reported.ne_badRequest error)
  | unusable before inserted unusable => cases refused
  | @unplanned first event value? id failure before inserted usable unplanned =>
    refine ⟨(ChangeSet.planAfterCreate_fails_iff (detect_of_planCreate planned)).mp
      ⟨failure, unplanned⟩, first, event, [⟨.rollback, reply⟩], value?, id, ?_, before, inserted,
      usable⟩
    rw [List.cons_append, List.append_assoc]
    rfl
  | late _ _ _ _ _ reported => exact absurd refused.symm (reported.ne_badRequest error)

/-- The steps up to an insertion that was accepted were not stopped. -/
theorem Inserted.not_stoppedBy {plan : CreatePlan} {sent : List Store.Event}
    {last : Store.Event} {failure : StoreError}
    (inserted : Inserted plan (⟨.start, .ok ()⟩ :: sent ++ [last])) :
    ¬ StoppedBy (plan.beforeInsert ++ [plan.insert]) sent failure := by
  intro stopped
  obtain ⟨first, event, rest, value?, id, same, before, accepted, -⟩ := inserted
  have all : AllAccepted (plan.beforeInsert ++ [plan.insert]) (first ++ [event]) :=
    List.rel_append before (.cons ⟨value?, accepted⟩ .nil)
  -- What was sent up to the failure is no longer than the accepted part of the same calls.
  have short : sent.length ≤ (first ++ [event]).length := by
    obtain ⟨done, step, later, replies, reply, steps, rfl, accepted, -⟩ := stopped
    have lengths := congrArg List.length steps
    rw [← all.length_eq, lengths, List.length_append, List.length_append, accepted.length_eq]
    simp
  have whole : sent ++ [last] = first ++ [event] ++ rest := by
    rw [List.append_assoc]
    exact (List.cons.inj same).2
  obtain ⟨later, split⟩ := List.prefix_of_prefix_length_le ⟨[last], rfl⟩ ⟨rest, whole.symm⟩ short
  rw [← split, ← List.append_nil (plan.beforeInsert ++ [plan.insert])] at all
  exact all.not_stoppedBy_append stopped

/-- **A creation that adds its row is refused** if there are related resources that cannot be made
to refer to it. -/
theorem Course.refused_of_inserted {plan : ChangeSet × CreatePlan} {calls : List Store.Event}
    {result : Except RepositoryError ResourceId}
    (planned : planCreate schema resourceType after = .ok plan)
    (unassignable : ChangeSet.Unassignable schema resourceType after)
    (inserted : Inserted plan.2 calls)
    (course : Course (planCreate schema resourceType after) (Created schema)
      (CreationStopped schema) calls result) :
    ∃ error, result = .error (.badRequest error) := by
  have unplannable (id : ResourceId) (steps : List MutationStep) :
      plan.1.planAfterCreate schema id ≠ .ok steps := by
    obtain ⟨error, failed⟩ :=
      (ChangeSet.planAfterCreate_fails_iff (detect_of_planCreate planned)).mpr unassignable
    rw [failed]
    exact fun h => by cases h
  have same {other : ChangeSet × CreatePlan}
      (h : planCreate schema resourceType after = .ok other) : other = plan := by
    rw [planned] at h
    exact (Except.ok.inj h).symm
  cases course with
  | unplanned | unstarted =>
    obtain ⟨_, _, _, _, _, calls, -⟩ := inserted
    cases calls
  | kept planned' completed | unkept planned' completed =>
    obtain rfl := same planned'
    cases completed with
    | mk _ _ _ planned => exact absurd planned (unplannable _ _)
  | @undone other sent error reply planned' stopped =>
    obtain rfl := same planned'
    cases stopped with
    | early stopped _ => exact absurd stopped inserted.not_stoppedBy
    | @unusable first event value? before accepted unusable =>
      obtain ⟨first', event', rest, value?', id, calls, before', accepted', usable⟩ := inserted
      rw [List.cons_append, List.append_assoc] at calls
      obtain ⟨rfl, -⟩ := insertion_unique before before' accepted accepted' (List.cons.inj calls).2
      rw [unusable] at usable
      cases usable
    | @unplanned _ _ _ _ failure _ _ _ unplanned =>
      obtain ⟨change, -, missing⟩ := ChangeSet.relatedSteps_error unplanned
      refine ⟨failure, ?_⟩
      rw [RepositoryError.ofCompile, ChangeSet.isInternal_of_relatedTable missing]
      rfl
    | late _ _ _ planned _ _ => exact absurd planned (unplannable _ _)

/-- **A refused creation made no call, or its row was added and then undone.** -/
theorem Course.untouched_or_undone {calls : List Store.Event}
    {result : Except RepositoryError ResourceId}
    (course : Course (planCreate schema resourceType after) (Created schema)
      (CreationStopped schema) calls result) :
    Untouched calls result
      ∨ ChangeSet.Unassignable schema resourceType after
        ∧ (∃ plan, planCreate schema resourceType after = .ok plan ∧ Inserted plan.2 calls)
        ∧ ∃ reply, calls.getLast? = some ⟨.rollback, reply⟩ := by
  rcases course.untouched_or_stopped with untouched | ⟨plan, sent, _, reply, planned, stopped, rfl⟩
  · exact .inl untouched
  · obtain ⟨unassignable, inserted⟩ := stopped.unassignable planned reply
    exact .inr ⟨unassignable, ⟨plan, planned, inserted⟩, reply, List.getLast?_concat⟩

theorem Course.untouched_iff {calls : List Store.Event} {result : Except RepositoryError ResourceId}
    (course : Course (planCreate schema resourceType after) (Created schema)
      (CreationStopped schema) calls result) :
    Untouched calls result
      ↔ ¬ (ChangeSet.Unassignable schema resourceType after
        ∧ ∃ plan, planCreate schema resourceType after = .ok plan ∧ Inserted plan.2 calls) := by
  constructor
  · rintro untouched ⟨unassignable, plan, planned, inserted⟩
    obtain ⟨error, refused⟩ := course.refused_of_inserted planned unassignable inserted
    obtain ⟨_, _, _, _, _, calls, -⟩ := inserted
    rw [untouched error refused] at calls
    cases calls
  · intro never
    rcases course.untouched_or_undone with untouched | ⟨unassignable, inserted, -⟩
    · exact untouched
    · exact absurd ⟨unassignable, inserted⟩ never

end Creations

/-! ### Operations -/

/-- **When bad requests touch the database.**  For every database and whatever happened before, a
query, an update or a deletion that is refused as a bad request makes no call.  A creation that is
refused makes no call either, unless there are related resources that cannot be made to refer to the
new one: then it is refused when its row was added already, and undone. -/
theorem untouched_iff_not_inserted (repository : Repository σ) :
    (∀ request, (repository.query request).Does Untouched)
    ∧ (∀ resourceType before after, (repository.update resourceType before after).Does Untouched)
    ∧ (∀ resourceType id, (repository.delete resourceType id).Does Untouched)
    ∧ ∀ resourceType after, (repository.create resourceType after).Does (fun calls result =>
      (Untouched calls result ↔
        ¬ (ChangeSet.Unassignable repository.schema resourceType after
          ∧ ∃ plan, planCreate repository.schema resourceType after = .ok plan
            ∧ Inserted plan.2 calls))
      ∧ (Untouched calls result ∨ ∃ reply, calls.getLast? = some ⟨.rollback, reply⟩)) := by
  refine ⟨repository.does_query_untouched, fun resourceType before after => ?_,
    fun resourceType id => ?_, fun resourceType after => ?_⟩
  · have does : (repository.update resourceType before after).Does
        (Course (planUpdate repository.schema resourceType before after) Applied Halted) :=
      does_write repository repository.does_runAll
    exact does.mono fun calls result course => course.untouched_of_halted
  · have does : (repository.delete resourceType id).Does
        (Course (planDelete repository.schema resourceType id)
          (fun step => Applied [step]) (fun step => Halted [step])) :=
      does_write repository (fun step => repository.does_runAll [step])
    exact does.mono fun calls result course => course.untouched_of_halted
  · have does : (repository.create resourceType after).Does
        (Course (planCreate repository.schema resourceType after)
          (Created repository.schema) (CreationStopped repository.schema)) :=
      does_write repository (fun plan => repository.does_runCreate plan.1 plan.2)
    refine does.mono fun calls result course => ⟨course.untouched_iff, ?_⟩
    exact course.untouched_or_undone.imp_right fun undone => undone.2.2

/-! ### An article with tags -/

/-- Articles that store the key of one of their tags, under a relationship that leads to several. -/
def articles : Schema where
  resourceTypes := Dict.ofList [
    ("articles", {
      tableName := "Articles"
      idColumn := "Id"
      columns := Dict.ofList [("Id", ⟨.bigint, false⟩), ("TagId", ⟨.bigint, true⟩)]
      attributes := ∅
      relationships := Dict.ofList [("tags", ⟨"tags", .many, ⟨.left, "TagId"⟩, none⟩)] }),
    ("tags", {
      tableName := "Tags"
      idColumn := "Id"
      columns := Dict.ofList [("Id", ⟨.bigint, false⟩)]
      attributes := ∅
      relationships := ∅ })]
  enumTypes := ∅

/-- A new article with a tag. -/
def tagged : Snapshot :=
  { Snapshot.empty with toMany := Dict.ofList [("tags", IdSet.ofList [.int 5])] }

/-- **A bad request that touches the database**: the tags of an article cannot be set, but its row
is added before that is noticed. -/
theorem not_untouched_article :
    ¬ ((Repository.mk articles ⟨10, none, false⟩ Script.empty.store).create "articles" tagged).Does
      Untouched := by
  intro does
  obtain ⟨calls, trace, untouched⟩ := does (Session.start Script.empty.start)
  have refused : (((Repository.mk articles ⟨10, none, false⟩ Script.empty.store).create "articles"
      tagged).run (Session.start Script.empty.start)).1
      = .error (.badRequest (.unsupported (.movingForeignKey "tags" "articles"))) := by
    decide +kernel
  have names : (((Repository.mk articles ⟨10, none, false⟩ Script.empty.store).create "articles"
      tagged).run (Session.start Script.empty.start)).2.trace.map (fun event => event.call.name)
      = ["begin", "fetchId", "rollback"] := by
    decide +kernel
  rw [trace, untouched _ refused] at names
  cases names

end Repository

end ResourceQuery
