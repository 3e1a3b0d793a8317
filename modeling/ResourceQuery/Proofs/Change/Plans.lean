import ResourceQuery.Proofs.Repository.BadRequests

/-!
# What plans consist of

A plan succeeds if and only if its parts do, and its steps are those of the parts.

## Main Statements

- `ChangeSet.planUpdate_eq_ok_iff`, `ChangeSet.planCreate_eq_ok_iff`: the parts of a plan.
- `ChangeSet.mem_planRelease`, `ChangeSet.mem_relatedSteps`: the change that a step is for.
- `ChangeSet.relatedTable_eq_ok_iff`: the table of related resources.
-/

namespace ResourceQuery.ChangeSet

variable {schema : Schema} {resourceType name : String} {c : ChangeSet} {id : ResourceId}

/-! ### Exclusive relationships -/

theorem mem_of_mapM_ok {ε α β : Type} {f : α → Except ε β} {items : List α} {results : List β}
    (done : items.mapM f = .ok results) {result : β} (mem : result ∈ results) :
    ∃ item ∈ items, f item = .ok result := by
  induction items generalizing results with
  | nil =>
    cases done
    cases mem
  | cons item rest ih =>
    rw [List.mapM_cons] at done
    obtain ⟨first, here, done⟩ := Sql.exists_of_bind_ok done
    obtain ⟨others, later, done⟩ := Sql.exists_of_bind_ok done
    cases done
    rcases List.mem_cons.mp mem with rfl | mem
    · exact ⟨item, List.mem_cons_self, here⟩
    · obtain ⟨other, listed, found⟩ := ih later mem
      exact ⟨other, List.mem_cons_of_mem _ listed, found⟩

/-- The step that takes a resource away clears or deletes by the foreign key. -/
theorem releaseStep_eq_ok_iff {change : OneToOneChange} {step : MutationStep} :
    releaseStep schema resourceType change = .ok step
      ↔ ∃ key info, schema.foreignKeyOf resourceType change.relationship = .ok key
        ∧ schema.resourceType resourceType = .ok info
        ∧ step = ⟨clearOrDelete info.tableName key.column key.nullable
          (isOneOf Names.fresh key.column [change.new]), .atMostOne⟩ := by
  constructor
  · intro planned
    obtain ⟨key, found, planned⟩ := Sql.exists_of_bind_ok planned
    obtain ⟨info, known, planned⟩ := Sql.exists_of_bind_ok planned
    cases planned
    exact ⟨key, info, found, known, rfl⟩
  · rintro ⟨key, info, found, known, rfl⟩
    rw [releaseStep, found, known]
    rfl

/-- **A step that makes room** is for one of the one-to-one relationships. -/
theorem mem_planRelease {steps : List MutationStep} (planned : planRelease schema c = .ok steps)
    {step : MutationStep} (mem : step ∈ steps) :
    ∃ change ∈ c.oneToOne, releaseStep schema c.resourceType change = .ok step :=
  mem_of_mapM_ok (lookup_of_ofLookup planned) mem

/-! ### Related resources -/

/-- **The table of related resources** is that of the target, which has to store the key. -/
theorem relatedTable_eq_ok_iff {table : RelatedTable} :
    relatedTable schema resourceType name = .ok table
      ↔ ∃ relationship target, schema.relationship resourceType name = .ok relationship
        ∧ schema.foreignKeyOf resourceType name = .ok table.key ∧ table.key.ownedBy = .right
        ∧ schema.resourceType relationship.target = .ok target
        ∧ table.name = target.tableName ∧ table.idColumn = target.idColumn := by
  constructor
  · intro found
    obtain ⟨relationship, declared, found⟩ := Sql.exists_of_bind_ok found
    obtain ⟨key, resolved, found⟩ := Sql.exists_of_bind_ok found
    split at found
    · rename_i owned
      obtain ⟨target, known, found⟩ := Sql.exists_of_bind_ok found
      cases found
      exact ⟨relationship, target, lookup_of_ofLookup declared, lookup_of_ofLookup resolved, owned,
        lookup_of_ofLookup known, rfl, rfl⟩
    · cases found
  · rintro ⟨relationship, target, declared, resolved, owned, known, named, identified⟩
    obtain ⟨_, _, key⟩ := table
    dsimp only at resolved owned named identified
    subst named identified
    unfold relatedTable
    simp only [declared, resolved, known, owned, CompileError.ofLookup, bind, Except.bind, if_true]
    rfl

/-- **A step for related resources** is for one of the changed relationships. -/
theorem mem_relatedSteps {changes : List (String × List ResourceId × List ResourceId)}
    {steps : List MutationStep} (planned : relatedSteps schema resourceType id changes = .ok steps)
    {step : MutationStep} (mem : step ∈ steps) :
    ∃ change ∈ changes, ∃ table, relatedTable schema resourceType change.1 = .ok table
      ∧ step ∈ table.replace id change.2.1 change.2.2 := by
  induction changes generalizing steps with
  | nil =>
    cases planned
    cases mem
  | cons change rest ih =>
    obtain ⟨table, found, planned⟩ := Sql.exists_of_bind_ok planned
    obtain ⟨others, later, planned⟩ := Sql.exists_of_bind_ok planned
    cases planned
    rcases List.mem_append.mp mem with mem | mem
    · exact ⟨change, List.mem_cons_self, table, found, mem⟩
    · obtain ⟨other, listed, found⟩ := ih later mem
      exact ⟨other, List.mem_cons_of_mem _ listed, found⟩

/-! ### Plans -/

/-- **The parts of a plan for an existing resource.** -/
theorem planUpdate_eq_ok_iff {steps : List MutationStep} :
    c.planUpdate schema = .ok steps
      ↔ c.checkRequired = .ok () ∧ ∃ id release info related, c.resourceId? = some id
        ∧ planRelease schema c = .ok release ∧ schema.resourceType c.resourceType = .ok info
        ∧ planRelated schema c id = .ok related
        ∧ steps = release ++ ownStep info c id ++ related := by
  constructor
  · intro planned
    obtain ⟨⟨⟩, allowed, planned⟩ := Sql.exists_of_bind_ok planned
    cases given : c.resourceId? with
    | none =>
      rw [given] at planned
      cases planned
    | some id =>
      rw [given] at planned
      obtain ⟨release, released, planned⟩ := Sql.exists_of_bind_ok planned
      obtain ⟨info, known, planned⟩ := Sql.exists_of_bind_ok planned
      obtain ⟨related, added, planned⟩ := Sql.exists_of_bind_ok planned
      cases planned
      exact ⟨allowed, id, release, info, related, rfl, released, lookup_of_ofLookup known, added,
        rfl⟩
  · rintro ⟨allowed, id, release, info, related, given, released, known, added, rfl⟩
    unfold planUpdate
    simp only [allowed, given, released, known, added, CompileError.ofLookup, bind, Except.bind]
    rfl

/-- **The parts of a plan for a new resource.** -/
theorem planCreate_eq_ok_iff {plan : CreatePlan} :
    c.planCreate schema = .ok plan
      ↔ c.checkRequired = .ok () ∧ ∃ release info, planRelease schema c = .ok release
        ∧ schema.resourceType c.resourceType = .ok info
        ∧ plan = ⟨release, .insert info.tableName (assignments Names.fresh c.columns).1
          info.idColumn, .returnsId⟩ := by
  constructor
  · intro planned
    obtain ⟨⟨⟩, allowed, planned⟩ := Sql.exists_of_bind_ok planned
    obtain ⟨release, released, planned⟩ := Sql.exists_of_bind_ok planned
    obtain ⟨info, known, planned⟩ := Sql.exists_of_bind_ok planned
    cases planned
    exact ⟨allowed, release, info, released, lookup_of_ofLookup known, rfl⟩
  · rintro ⟨allowed, release, info, released, known, rfl⟩
    unfold planCreate
    simp only [allowed, released, known, CompileError.ofLookup, bind, Except.bind]
    rfl

end ResourceQuery.ChangeSet
