import ResourceQuery.Change.Plan
import ResourceQuery.Proofs.Compile.Numbering

/-!
# The values that statements carry

The statements that apply a change take a parameter for every identifier they mention and for every
value they write that is not null.  As in queries, the parameters are numbered in the order of the
text.

## Main Definitions

- `Names.given`: parameters for a list of values.
- `Sql.Statement.Carries`: the parameters of a statement are those of a list of values.
- `ChangeSet.releasedValues`, `ChangeSet.ownValues`, `ChangeSet.relatedValues`: the values that each
  statement of a plan carries.

## Main Statements

- `ChangeSet.planUpdate_carries`, `ChangeSet.planCreate_carries`, `ChangeSet.planRelated_carries`,
  `planDelete_carries`: what the statements of a plan carry.
- `parameters_numbered`: the parameters of every statement are numbered in the order of the text.
-/

namespace ResourceQuery

open Sql (Value Parameter Statement Condition Assignment Operand Piece)

/-! ### Numbered values -/

/-- Parameters for a list of values, numbered from the next number on. -/
def Names.given : Nat → List Value → List Parameter
  | _, [] => []
  | taken, value :: rest => ⟨parameterName (taken + 1), value⟩ :: given (taken + 1) rest

namespace Names

@[simp] theorem given_append (taken : Nat) (values more : List Value) :
    given taken (values ++ more) = given taken values ++ given (taken + values.length) more := by
  induction values generalizing taken with
  | nil => rfl
  | cons value rest ih =>
    have count : taken + 1 + rest.length = taken + (value :: rest).length := by
      rw [List.length_cons]
      omega
    rw [List.cons_append, given, ih, given, count, List.cons_append]

theorem map_name_given (taken : Nat) (values : List Value) :
    (given taken values).map Parameter.name
      = between parameterName taken (taken + values.length) := by
  induction values generalizing taken with
  | nil => simp [given]
  | cons value rest ih =>
    have whole := between_append parameterName (Nat.le_add_right taken 1)
      (Nat.le_add_right (taken + 1) rest.length)
    rw [given, List.map_cons, ih, List.length_cons, Nat.add_comm rest.length 1, ← Nat.add_assoc,
      ← whole, between_succ]
    rfl

theorem map_value_given (taken : Nat) (values : List Value) :
    (given taken values).map Parameter.value = values := by
  induction values generalizing taken with
  | nil => rfl
  | cons value rest ih => rw [given, List.map_cons, ih]

end Names

/-- **A statement carries values**: they are its parameters, numbered in the order of the text, and
each is referred to once. -/
structure Sql.Statement.Carries (s : Statement) (values : List Value) : Prop where
  numbered : Piece.Numbered s.pieces values.length
  values : s.render.params.map Prod.snd = values

theorem Sql.Statement.carries_of_references {s : Statement} {values : List Value}
    (h : Piece.references s.pieces = Names.given 0 values) : s.Carries values := by
  have names := Names.map_name_given 0 values
  rw [← h, Nat.zero_add] at names
  have numbered := Piece.numbered_of_names names
  refine ⟨numbered, ?_⟩
  have kept : s.render.params = _ := numbered.kept
  rw [kept, List.map_map, h]
  exact Names.map_value_given 0 values

/-! ### Parts of statements -/

namespace ChangeSet

/-- The values that are written as parameters. -/
def writtenValues (columns : List (String × Value)) : List Value :=
  (columns.map Prod.snd).filter (fun value => value ≠ .null)

theorem idParameters_eq (names : Names) (ids : List ResourceId) :
    idParameters names ids = Names.given names.parameters (ids.map ResourceId.toValue) := by
  induction ids generalizing names with
  | nil => rfl
  | cons id rest ih =>
    rw [List.map_cons, Names.given]
    exact congrArg (List.cons _) (ih _)

theorem parameters_isOneOf (names : Names) (column : String) (ids : List ResourceId) :
    (isOneOf names column ids).parameters
      = Names.given names.parameters (ids.map ResourceId.toValue) := by
  rw [isOneOf, (Condition.occurrences_equalsAny _ _).2, idParameters_eq]

/-- A value that is not null is written as a parameter. -/
theorem assignments_cons (names : Names) (column : String) {value : Value}
    (rest : List (String × Value)) (given : value ≠ .null) :
    assignments names ((column, value) :: rest)
      = (⟨column, .parameter (names.nextParameter value).1⟩
          :: (assignments (names.nextParameter value).2 rest).1,
        (assignments (names.nextParameter value).2 rest).2) := by
  cases value <;> first | rfl | exact absurd rfl given

/-- The values written to columns take parameters in the order of the columns. -/
theorem assignments_spec (names : Names) (columns : List (String × Value)) :
    (assignments names columns).1.flatMap (fun a => a.value.parameters)
        = Names.given names.parameters (writtenValues columns)
      ∧ (assignments names columns).2.parameters
        = names.parameters + (writtenValues columns).length := by
  induction columns generalizing names with
  | nil => exact ⟨rfl, rfl⟩
  | cons entry rest ih =>
    obtain ⟨column, value⟩ := entry
    by_cases null : value = .null
    · subst null
      exact ih names
    · obtain ⟨parameters, count⟩ := ih (names.nextParameter value).2
      have written : writtenValues ((column, value) :: rest) = value :: writtenValues rest := by
        simp [writtenValues, null]
      rw [assignments_cons names column rest null, written, Names.given, List.flatMap_cons,
        parameters, count, List.length_cons]
      refine ⟨rfl, ?_⟩
      simp only [Names.nextParameter]
      omega

theorem references_update {table : String} {written : List Assignment} {filter : Condition} :
    Piece.references (Statement.update table written filter).pieces
      = written.flatMap (fun a => a.value.parameters) ++ filter.parameters := by
  simp [Statement.pieces, Condition.wherePieces, Piece.parameter?, List.flatMap_map,
    Assignment.pieces, Operand.parameters, Condition.parameters]

theorem references_delete {table : String} {filter : Condition} :
    Piece.references (Statement.delete table filter).pieces = filter.parameters := by
  simp [Statement.pieces, Condition.wherePieces, Piece.parameter?, Condition.parameters]

theorem references_insert {table returning : String} {written : List Assignment} :
    Piece.references (Statement.insert table written returning).pieces
      = written.flatMap (fun a => a.value.parameters) := by
  have names : ∀ assignments : List Assignment, (assignments.map
      (fun a => [Piece.identifier a.column])).flatMap Piece.references = [] := by
    intro assignments
    simp [List.flatMap_map, Piece.parameter?]
  cases written with
  | nil => simp [Statement.pieces, Assignment.rowPieces, Piece.parameter?]
  | cons first rest =>
    simp only [Statement.pieces, Assignment.rowPieces, Piece.references_append,
      Piece.references_cons, Piece.references_joinPieces, names, Piece.parameter?,
      Piece.references_nil]
    simp [List.flatMap_map, Operand.parameters]

/-- Rows are taken away by the identifiers that are listed. -/
theorem carries_clearOrDelete (table column by_ : String) (nullable : Bool)
    (ids : List ResourceId) :
    (clearOrDelete table column nullable (isOneOf Names.fresh by_ ids)).Carries
      (ids.map ResourceId.toValue) := by
  refine Sql.Statement.carries_of_references ?_
  have filter := parameters_isOneOf Names.fresh by_ ids
  unfold clearOrDelete
  split
  · rw [references_update, filter]
    rfl
  · rw [references_delete, filter]
    rfl

/-! ### Related resources -/

/-- The values for a relationship whose foreign key is stored elsewhere: the resources taken away,
then the resource itself with those that are added. -/
def replacedValues (id : ResourceId) (removed added : List ResourceId) : List (List Value) :=
  (if removed.isEmpty then [] else [removed.map ResourceId.toValue])
    ++ (if added.isEmpty then [] else [id.toValue :: added.map ResourceId.toValue])

/-- The values for all relationships whose foreign keys are stored elsewhere. -/
def relatedValues (c : ChangeSet) (id : ResourceId) : List (List Value) :=
  c.relatedChanges.flatMap (fun change => replacedValues id change.2.1 change.2.2)

/-- The values for one-to-one relationships: the resource that is taken away from another one. -/
def releasedValues (c : ChangeSet) : List (List Value) :=
  c.oneToOne.map (fun change => [change.new.toValue])

/-- The values for the resource itself: those written to its columns, then its identifier. -/
def ownValues (c : ChangeSet) (id : ResourceId) : List (List Value) :=
  if c.columns.isEmpty then [] else [writtenValues c.columns ++ [id.toValue]]

/-- Each step carries the values listed for it. -/
def AllCarry (steps : List MutationStep) (values : List (List Value)) : Prop :=
  List.Forall₂ (fun step values => step.statement.Carries values) steps values

theorem AllCarry.append {steps more : List MutationStep} {values others : List (List Value)}
    (first : AllCarry steps values) (second : AllCarry more others) :
    AllCarry (steps ++ more) (values ++ others) :=
  List.rel_append first second

theorem RelatedTable.pointTo_carries (t : RelatedTable) (id : ResourceId)
    (ids : List ResourceId) :
    (t.pointTo id ids).statement.Carries (id.toValue :: ids.map ResourceId.toValue) := by
  refine Sql.Statement.carries_of_references ?_
  unfold RelatedTable.pointTo
  rw [references_update, parameters_isOneOf]
  rfl

theorem RelatedTable.replace_carries (t : RelatedTable) (id : ResourceId)
    (removed added : List ResourceId) :
    AllCarry (t.replace id removed added) (replacedValues id removed added) := by
  refine AllCarry.append ?_ ?_
  · split
    · exact .nil
    · exact .cons (carries_clearOrDelete _ _ _ _ _) .nil
  · split
    · exact .nil
    · exact .cons (t.pointTo_carries id added) .nil

/-- **The steps that change foreign keys in other tables** carry the resources taken away and those
added. -/
theorem planRelated_carries {schema : Schema} {c : ChangeSet} {id : ResourceId}
    {steps : List MutationStep} (h : planRelated schema c id = .ok steps) :
    AllCarry steps (c.relatedValues id) := by
  unfold planRelated at h
  unfold relatedValues
  generalize c.relatedChanges = changes at h ⊢
  induction changes generalizing steps with
  | nil =>
    cases h
    exact .nil
  | cons change rest ih =>
    obtain ⟨name, removed, added⟩ := change
    obtain ⟨table, -, h⟩ := Sql.exists_of_bind_ok h
    obtain ⟨others, hothers, h⟩ := Sql.exists_of_bind_ok h
    cases h
    exact (table.replace_carries id removed added).append (ih hothers)

/-! ### Plans -/

/-- The steps that make room for one-to-one relationships carry one identifier each. -/
theorem planRelease_carries {schema : Schema} {c : ChangeSet} {steps : List MutationStep}
    (h : planRelease schema c = .ok steps) : AllCarry steps c.releasedValues := by
  unfold planRelease at h
  unfold releasedValues
  cases ran : c.oneToOne.mapM (releaseStep schema c.resourceType) with
  | error e =>
    rw [ran] at h
    cases h
  | ok found =>
    rw [ran] at h
    cases h
    generalize c.oneToOne = changes at ran ⊢
    induction changes generalizing steps with
    | nil =>
      cases ran
      exact .nil
    | cons change rest ih =>
      rw [List.mapM_cons] at ran
      obtain ⟨step, hstep, ran⟩ := Sql.exists_of_bind_ok ran
      obtain ⟨others, hothers, ran⟩ := Sql.exists_of_bind_ok ran
      cases ran
      obtain ⟨key, -, hstep⟩ := Sql.exists_of_bind_ok hstep
      obtain ⟨info, -, hstep⟩ := Sql.exists_of_bind_ok hstep
      cases hstep
      exact .cons (carries_clearOrDelete _ _ _ _ [change.new]) (ih hothers)

theorem ownStep_carries (info : ResourceType) (c : ChangeSet) (id : ResourceId) :
    AllCarry (ownStep info c id) (c.ownValues id) := by
  unfold ownStep ownValues
  split
  · exact .nil
  · refine .cons (Sql.Statement.carries_of_references ?_) .nil
    obtain ⟨parameters, count⟩ := assignments_spec Names.fresh c.columns
    rw [references_update, parameters, parameters_isOneOf, count, Names.given_append]
    rfl

/-- **The steps that change a resource** carry the resources that it excludes elsewhere, its own
columns with its identifier, and the related resources. -/
theorem planUpdate_carries {schema : Schema} {c : ChangeSet} {steps : List MutationStep}
    (h : planUpdate schema c = .ok steps) :
    ∃ id, c.resourceId? = some id
      ∧ AllCarry steps (c.releasedValues ++ c.ownValues id ++ c.relatedValues id) := by
  obtain ⟨-, -, h⟩ := Sql.exists_of_bind_ok h
  cases given : c.resourceId? with
  | none =>
    rw [given] at h
    cases h
  | some id =>
    rw [given] at h
    obtain ⟨release, hrelease, h⟩ := Sql.exists_of_bind_ok h
    obtain ⟨info, -, h⟩ := Sql.exists_of_bind_ok h
    obtain ⟨related, hrelated, h⟩ := Sql.exists_of_bind_ok h
    cases h
    exact ⟨id, rfl, ((planRelease_carries hrelease).append (ownStep_carries info c id)).append
      (planRelated_carries hrelated)⟩

/-- **The steps that create a resource** carry the resources that it excludes elsewhere and its
columns. -/
theorem planCreate_carries {schema : Schema} {c : ChangeSet} {plan : CreatePlan}
    (h : planCreate schema c = .ok plan) :
    AllCarry plan.beforeInsert c.releasedValues
      ∧ plan.insert.statement.Carries (writtenValues c.columns) := by
  obtain ⟨-, -, h⟩ := Sql.exists_of_bind_ok h
  obtain ⟨release, hrelease, h⟩ := Sql.exists_of_bind_ok h
  obtain ⟨info, -, h⟩ := Sql.exists_of_bind_ok h
  cases h
  refine ⟨planRelease_carries hrelease, Sql.Statement.carries_of_references ?_⟩
  rw [references_insert, (assignments_spec Names.fresh c.columns).1]
  rfl

end ChangeSet

/-- **The step that removes a resource** carries its identifier. -/
theorem planDelete_carries {schema : Schema} {resourceType : String} {id : ResourceId}
    {step : MutationStep} (h : planDelete schema resourceType id = .ok step) :
    step.statement.Carries [id.toValue] := by
  obtain ⟨info, -, h⟩ := Sql.exists_of_bind_ok h
  cases h
  refine Sql.Statement.carries_of_references ?_
  rw [ChangeSet.references_delete, ChangeSet.parameters_isOneOf]
  rfl

/-! ### All statements -/

/-- **Parameters are numbered in the order of the text, without gaps**, in every statement: each of
the numbers up to the number of parameters that were taken is the key of one value, and occurs
once. -/
theorem parameters_numbered (schema : Schema) :
    (∀ (settings : QuerySettings) (request : Request) (plan : QueryPlan),
      request.compile schema settings = .ok plan →
      (∃ last, Compile.dataQuery schema settings request Progress.start = .ok (plan.data, last)
          ∧ Piece.Numbered plan.data.pieces last.names.parameters)
        ∧ ∀ count ∈ plan.count?, ∃ last,
          Compile.countQuery schema request.resourceType request.layer.filter? Progress.start
              = .ok (count, last)
            ∧ Piece.Numbered count.pieces last.names.parameters)
    ∧ (∀ (c : ChangeSet) (steps : List MutationStep), c.planUpdate schema = .ok steps →
      ∃ id, c.resourceId? = some id ∧ ChangeSet.AllCarry steps
        (c.releasedValues ++ c.ownValues id ++ c.relatedValues id))
    ∧ (∀ (c : ChangeSet) (plan : CreatePlan), c.planCreate schema = .ok plan →
      ChangeSet.AllCarry plan.beforeInsert c.releasedValues
        ∧ plan.insert.statement.Carries (ChangeSet.writtenValues c.columns))
    ∧ (∀ (c : ChangeSet) (id : ResourceId) (steps : List MutationStep),
      c.planAfterCreate schema id = .ok steps → ChangeSet.AllCarry steps (c.relatedValues id))
    ∧ ∀ (resourceType : String) (id : ResourceId) (step : MutationStep),
      planDelete schema resourceType id = .ok step → step.statement.Carries [id.toValue] := by
  refine ⟨fun settings request plan h => request.compile_numbered h, ?_, ?_, ?_, ?_⟩
  · exact fun c steps h => ChangeSet.planUpdate_carries h
  · exact fun c plan h => ChangeSet.planCreate_carries h
  · exact fun c id steps h => ChangeSet.planRelated_carries h
  · exact fun resourceType id step h => planDelete_carries h

/-- A person who gets a login account and another last name, loses the first name, and hands over an
item for two others. -/
def ChangeSet.person : ChangeSet where
  resourceType := "people"
  resourceId? := some (.int 7)
  columns := [("FirstName", .null), ("LastName", .string "Smith"), ("AccountId", .int 3)]
  oneToOne := [⟨"account", none, .int 3⟩]
  toOneAtRight := []
  toMany := [⟨"ownedTodoItems", IdSet.ofList [.int 1, .int 2], IdSet.ofList [.int 2, .int 4, .int 5]⟩]
  clearedRequired := []

/-- A filtered request, and a change that leads to each kind of statement. -/
theorem parameters_numbered_todo :
    (∃ plan, Request.sample.compile Schema.todo ⟨10, none, true⟩ = .ok plan
      ∧ ∃ last, Compile.dataQuery Schema.todo ⟨10, none, true⟩ Request.sample Progress.start
          = .ok (plan.data, last)
        ∧ Piece.Numbered plan.data.pieces last.names.parameters)
    ∧ (∃ steps, ChangeSet.person.planUpdate Schema.todo = .ok steps
      ∧ ChangeSet.AllCarry steps [[.int 3], [.string "Smith", .int 3, .int 7], [.int 1],
        [.int 7, .int 4, .int 5]])
    ∧ (∃ plan, ChangeSet.person.planCreate Schema.todo = .ok plan
      ∧ ChangeSet.AllCarry plan.beforeInsert [[.int 3]]
      ∧ plan.insert.statement.Carries [.string "Smith", .int 3])
    ∧ (∃ steps, ChangeSet.person.planAfterCreate Schema.todo (.int 7) = .ok steps
      ∧ ChangeSet.AllCarry steps [[.int 1], [.int 7, .int 4, .int 5]])
    ∧ ∃ step, planDelete Schema.todo "people" (.int 7) = .ok step
      ∧ step.statement.Carries [.int 7] := by
  obtain ⟨queries, updates, creations, later, deletions⟩ := parameters_numbered Schema.todo
  refine ⟨?_, ?_, ?_, ?_, ?_⟩
  · obtain ⟨plan, h⟩ := exists_of_isOk
      (show (Request.sample.compile Schema.todo ⟨10, none, true⟩).isOk = true by decide +kernel)
    exact ⟨plan, h, (queries _ _ plan h).1⟩
  · obtain ⟨steps, h⟩ := exists_of_isOk
      (show (ChangeSet.person.planUpdate Schema.todo).isOk = true by decide +kernel)
    obtain ⟨id, given, carry⟩ := updates _ steps h
    cases given
    exact ⟨steps, h, carry⟩
  · obtain ⟨plan, h⟩ := exists_of_isOk
      (show (ChangeSet.person.planCreate Schema.todo).isOk = true by decide +kernel)
    exact ⟨plan, h, creations _ plan h⟩
  · obtain ⟨steps, h⟩ := exists_of_isOk
      (show (ChangeSet.person.planAfterCreate Schema.todo (.int 7)).isOk = true by decide +kernel)
    exact ⟨steps, h, later _ _ steps h⟩
  · obtain ⟨step, h⟩ := exists_of_isOk
      (show (planDelete Schema.todo "people" (.int 7)).isOk = true by decide +kernel)
    exact ⟨step, h, deletions _ _ step h⟩

end ResourceQuery
