import ResourceQuery.Proofs.Change.Parameters
import ResourceQuery.Proofs.Change.Plans
import ResourceQuery.Proofs.Compile.NormalForms
import ResourceQuery.Proofs.Sql.GapFree

/-!
# Statements in normal form

The statements that apply a change select rows by identifiers.  There is at least one identifier
wherever a statement is planned, so these conditions are in normal form as well.

## Main Statements

- `ChangeSet.isNormal_planRelease`, `ChangeSet.isNormal_ownStep`,
  `ChangeSet.isNormal_planRelated`: the steps of a plan are in normal form.
- `statements_normal`: the conditions of all statements are in normal form, and their texts have no
  gaps.
-/

namespace ResourceQuery

open Sql (Statement Condition Assignment Piece)
open Sql.Select (AllNormal allNormal_nil)

namespace ChangeSet

variable {schema : Schema} {c : ChangeSet} {id : ResourceId}

/-! ### Parts of statements -/

theorem idParameters_ne_nil (names : Names) {ids : List ResourceId} (some : ids ≠ []) :
    idParameters names ids ≠ [] := by
  obtain ⟨first, rest, rfl⟩ := List.exists_cons_of_ne_nil some
  exact List.cons_ne_nil _ _

/-- A condition on identifiers is in normal form, if there are any. -/
theorem isNormalInside_isOneOf (names : Names) (column : String) {ids : List ResourceId}
    (some : ids ≠ []) : (isOneOf names column ids).IsNormalInside := by
  refine ⟨Condition.isNormal_equalsAny _ (idParameters_ne_nil names some), ?_⟩
  rw [isOneOf, (Condition.occurrences_equalsAny _ _).1]
  exact allNormal_nil

/-- Written values contain no queries. -/
theorem allNormal_assignments (names : Names) (columns : List (String × Sql.Value)) :
    AllNormal ((assignments names columns).1.flatMap (fun a => a.value.nodes)) := by
  induction columns generalizing names with
  | nil => exact allNormal_nil
  | cons entry rest ih =>
    obtain ⟨column, value⟩ := entry
    by_cases null : value = .null
    · subst null
      exact ih names
    · rw [assignments_cons names column rest null]
      exact ih _

theorem isNormal_update {table : String} {written : List Assignment} {filter : Condition}
    (values : AllNormal (written.flatMap (fun a => a.value.nodes)))
    (normal : filter.IsNormalInside) : (Statement.update table written filter).IsNormal :=
  ⟨by rintro _ ⟨⟩; exact normal.1, Sql.Select.allNormal_append.mpr ⟨values, normal.2⟩⟩

theorem isNormal_delete {table : String} {filter : Condition} (normal : filter.IsNormalInside) :
    (Statement.delete table filter).IsNormal :=
  ⟨by rintro _ ⟨⟩; exact normal.1, normal.2⟩

theorem isNormal_clearOrDelete (table column : String) (nullable : Bool) {filter : Condition}
    (normal : filter.IsNormalInside) :
    (clearOrDelete table column nullable filter).IsNormal := by
  unfold clearOrDelete
  split
  · exact isNormal_update allNormal_nil normal
  · exact isNormal_delete normal

/-! ### Steps -/

/-- The steps that make room for one-to-one relationships name one identifier each. -/
theorem isNormal_planRelease {steps : List MutationStep}
    (planned : planRelease schema c = .ok steps) : ∀ step ∈ steps, step.statement.IsNormal := by
  intro step mem
  obtain ⟨change, -, planned⟩ := mem_planRelease planned mem
  obtain ⟨key, info, -, -, rfl⟩ := releaseStep_eq_ok_iff.mp planned
  exact isNormal_clearOrDelete _ _ _ (isNormalInside_isOneOf _ _ (List.cons_ne_nil _ _))

theorem isNormal_ownStep (info : ResourceType) (c : ChangeSet) (id : ResourceId) :
    ∀ step ∈ ownStep info c id, step.statement.IsNormal := by
  intro step mem
  unfold ownStep at mem
  split at mem
  · cases mem
  · rw [List.mem_singleton.mp mem]
    exact isNormal_update (allNormal_assignments _ _)
      (isNormalInside_isOneOf _ _ (List.cons_ne_nil _ _))

/-- No step is planned for an empty list of related resources. -/
theorem RelatedTable.isNormal_replace (t : RelatedTable) (id : ResourceId)
    (removed added : List ResourceId) :
    ∀ step ∈ t.replace id removed added, step.statement.IsNormal := by
  intro step mem
  rcases List.mem_append.mp mem with mem | mem
  · split at mem
    · cases mem
    · rename_i some
      rw [List.mem_singleton.mp mem]
      exact isNormal_clearOrDelete _ _ _ (isNormalInside_isOneOf _ _ (by simpa using some))
  · split at mem
    · cases mem
    · rename_i some
      rw [List.mem_singleton.mp mem]
      exact isNormal_update allNormal_nil (isNormalInside_isOneOf _ _ (by simpa using some))

theorem isNormal_planRelated {steps : List MutationStep}
    (planned : planRelated schema c id = .ok steps) : ∀ step ∈ steps, step.statement.IsNormal := by
  intro step mem
  obtain ⟨change, -, table, -, mem⟩ := mem_relatedSteps planned mem
  exact table.isNormal_replace id _ _ step mem

/-! ### Plans -/

/-- **The steps that change a resource are in normal form.** -/
theorem isNormal_planUpdate {steps : List MutationStep}
    (planned : c.planUpdate schema = .ok steps) : ∀ step ∈ steps, step.statement.IsNormal := by
  obtain ⟨-, id, release, info, related, -, released, -, changed, rfl⟩ :=
    planUpdate_eq_ok_iff.mp planned
  intro step mem
  rcases List.mem_append.mp mem with mem | mem
  · rcases List.mem_append.mp mem with mem | mem
    · exact isNormal_planRelease released step mem
    · exact isNormal_ownStep info c id step mem
  · exact isNormal_planRelated changed step mem

/-- **The steps that create a resource are in normal form.** -/
theorem isNormal_planCreate {plan : CreatePlan} (planned : c.planCreate schema = .ok plan) :
    ∀ step ∈ plan.beforeInsert ++ [plan.insert], step.statement.IsNormal := by
  obtain ⟨-, release, info, released, -, rfl⟩ := planCreate_eq_ok_iff.mp planned
  intro step mem
  rcases List.mem_append.mp mem with mem | mem
  · exact isNormal_planRelease released step mem
  · rw [List.mem_singleton.mp mem]
    exact ⟨nofun, allNormal_assignments _ _⟩

end ChangeSet

/-- **The step that removes a resource is in normal form.** -/
theorem isNormal_planDelete {schema : Schema} {resourceType : String} {id : ResourceId}
    {step : MutationStep} (planned : planDelete schema resourceType id = .ok step) :
    step.statement.IsNormal := by
  obtain ⟨info, -, planned⟩ := Sql.exists_of_bind_ok planned
  cases planned
  exact ChangeSet.isNormal_delete (ChangeSet.isNormalInside_isOneOf _ _ (List.cons_ne_nil _ _))

/-! ### All statements -/

/-- **All conditions are in normal form**, in every statement and at every depth: at least two terms
are combined, none of them by the same operator again, a list has at least two values, and at most
one side of a comparison is null, which is then compared for equality.  So the text of a statement
contains no empty condition, no empty list and no null behind a sign that orders values. -/
theorem statements_normal (schema : Schema) :
    (∀ (settings : QuerySettings) (request : Request) (plan : QueryPlan),
      request.compile schema settings = .ok plan →
      ∀ query ∈ plan.count?.toList ++ [plan.data],
        (Statement.select query).IsNormal ∧ Piece.GapFree query.pieces)
    ∧ (∀ (c : ChangeSet) (steps : List MutationStep), c.planUpdate schema = .ok steps →
      ∀ step ∈ steps, step.statement.IsNormal ∧ Piece.GapFree step.statement.pieces)
    ∧ (∀ (c : ChangeSet) (plan : CreatePlan), c.planCreate schema = .ok plan →
      ∀ step ∈ plan.beforeInsert ++ [plan.insert],
        step.statement.IsNormal ∧ Piece.GapFree step.statement.pieces)
    ∧ (∀ (c : ChangeSet) (id : ResourceId) (steps : List MutationStep),
      c.planAfterCreate schema id = .ok steps →
      ∀ step ∈ steps, step.statement.IsNormal ∧ Piece.GapFree step.statement.pieces)
    ∧ ∀ (resourceType : String) (id : ResourceId) (step : MutationStep),
      planDelete schema resourceType id = .ok step →
        step.statement.IsNormal ∧ Piece.GapFree step.statement.pieces := by
  have complete : ∀ {s : Statement}, s.IsNormal → s.IsNormal ∧ Piece.GapFree s.pieces :=
    fun normal => ⟨normal, normal.gapFree_pieces⟩
  refine ⟨?_, ?_, ?_, ?_, ?_⟩
  · intro settings request plan h query mem
    obtain ⟨data, counts⟩ := request.compile_normal h
    have normal : AllNormal query.nodes := by
      rcases List.mem_append.mp mem with mem | mem
      · exact counts query (Option.mem_toList.mp mem)
      · rw [List.mem_singleton.mp mem]
        exact data
    exact complete (s := .select query) ⟨nofun, normal⟩
  · exact fun c steps h step mem => complete (ChangeSet.isNormal_planUpdate h step mem)
  · exact fun c plan h step mem => complete (ChangeSet.isNormal_planCreate h step mem)
  · exact fun c id steps h step mem => complete (ChangeSet.isNormal_planRelated h step mem)
  · exact fun resourceType id step h => complete (isNormal_planDelete h)

/-- Items with terms inside terms, a list with a null, a comparison with null and a condition on
related resources. -/
def Request.nestedTerms : Request where
  resourceType := "todoItems"
  layer := {
    filter? := some (.and [
      .and [.any ["description"] [.string "a", .null, .string "b"],
        .comparison .equals .null (.field ["owner", "firstName"])],
      .or [.any ["description"] [.string "c"],
        .has ["tags"] (some (.and [.textMatch ["name"] "x" .contains]))]])
    sort? := none
    pagination? := none
    selection? := none
    inclusions := [] }

/-- A filtered request, and a change that leads to each kind of statement. -/
theorem statements_normal_todo :
    (∃ plan, Request.nestedTerms.compile Schema.todo ⟨10, none, true⟩ = .ok plan
      ∧ ∀ query ∈ plan.count?.toList ++ [plan.data],
        (Statement.select query).IsNormal ∧ Piece.GapFree query.pieces)
    ∧ (∃ steps, ChangeSet.person.planUpdate Schema.todo = .ok steps
      ∧ ∀ step ∈ steps, step.statement.IsNormal ∧ Piece.GapFree step.statement.pieces)
    ∧ (∃ plan, ChangeSet.person.planCreate Schema.todo = .ok plan
      ∧ ∀ step ∈ plan.beforeInsert ++ [plan.insert],
        step.statement.IsNormal ∧ Piece.GapFree step.statement.pieces)
    ∧ (∃ steps, ChangeSet.person.planAfterCreate Schema.todo (.int 7) = .ok steps
      ∧ ∀ step ∈ steps, step.statement.IsNormal ∧ Piece.GapFree step.statement.pieces)
    ∧ ∃ step, planDelete Schema.todo "people" (.int 7) = .ok step
      ∧ step.statement.IsNormal ∧ Piece.GapFree step.statement.pieces := by
  obtain ⟨queries, updates, creations, later, deletions⟩ := statements_normal Schema.todo
  refine ⟨?_, ?_, ?_, ?_, ?_⟩
  · obtain ⟨plan, h⟩ := exists_of_isOk
      (show (Request.nestedTerms.compile Schema.todo ⟨10, none, true⟩).isOk = true by
        decide +kernel)
    exact ⟨plan, h, queries _ _ plan h⟩
  · obtain ⟨steps, h⟩ := exists_of_isOk
      (show (ChangeSet.person.planUpdate Schema.todo).isOk = true by decide +kernel)
    exact ⟨steps, h, updates _ steps h⟩
  · obtain ⟨plan, h⟩ := exists_of_isOk
      (show (ChangeSet.person.planCreate Schema.todo).isOk = true by decide +kernel)
    exact ⟨plan, h, creations _ plan h⟩
  · obtain ⟨steps, h⟩ := exists_of_isOk
      (show (ChangeSet.person.planAfterCreate Schema.todo (.int 7)).isOk = true by decide +kernel)
    exact ⟨steps, h, later _ _ steps h⟩
  · obtain ⟨step, h⟩ := exists_of_isOk
      (show (planDelete Schema.todo "people" (.int 7)).isOk = true by decide +kernel)
    exact ⟨step, h, deletions _ _ step h⟩

end ResourceQuery
