import ResourceQuery.Proofs.Change.Parameters
import ResourceQuery.Proofs.Change.Plans
import ResourceQuery.Proofs.Compile.Agreement
import ResourceQuery.Proofs.Compile.Constants
import ResourceQuery.Proofs.Sql.NormalForm

/-!
# Identifiers in reads and in writes

A filter that compares the identifier of a resource gives the identifier the type of its column, as
it does with every constant.  The statements that change or remove the resource send the identifier
as it is: an integer as an integer and a text as a text.  The two agree for columns of integers and
of text, if the identifier is of that kind.  They differ for identifiers that are sent as text and
converted by the database, such as those in columns of type `uuid`: the conversion is missing in
writes.

## Main Definitions

- `Filter.identifies`: the filter that compares the identifier.
- `ResourceId.suits`: an identifier is of the kind of a column.
- `ScalarType.isConverted`: values of a type are sent as text and converted.

## Main Statements

- `ResourceId.toValue_eq_iff_suits`: the two values are equal if and only if the identifier suits
  the column.
- `identifiers_bound_alike_iff`: when reads and writes bind an identifier alike.
- `not_bound_alike_session`: an identifier of type `uuid` that is converted in reads only.
-/

namespace ResourceQuery

open Sql (Table Column Condition Parameter Value Rendered)

/-- **The filter that compares the identifier** of a resource. -/
def Filter.identifies (id : ResourceId) : Filter :=
  .comparison .equals (.field [Schema.idField]) (.constant id.toJson)

/-- **An identifier is of the kind of a column**: an integer in a column of integers, or a text in a
column of text. -/
def ResourceId.suits (type : ScalarType) : ResourceId → Bool
  | int _ => type.isIntegral
  | string _ => type.matchesText

/-- Values of a type are sent as text and converted by the database. -/
def ScalarType.isConverted : ScalarType → Bool
  | date | timestampWithTimeZone | timestampWithoutTimeZone | uuid => true
  | _ => false

/-! ### Two conversions -/

namespace ResourceId

/-- **The value for the column is the identifier's own if and only if the identifier suits it.** -/
theorem toValue_eq_iff_suits {enumTypes : Dict EnumType} {type : ScalarType} {id : ResourceId}
    {value : Value} (read : Constant.toValue enumTypes type none id.toJson = .ok value) :
    value = id.toValue ↔ id.suits type = true := by
  rw [Constant.toValue, if_neg id.toJson_ne_null] at read
  split at read
  · rename_i v given
    cases read
    cases id with
    | int n =>
      change Constant.numberValue? type _ = some value at given
      cases type with
      | smallint | integer | bigint =>
        simp only [Constant.numberValue?, Constant.int64OfNumber?_toInt, Option.map_some,
          Option.some.injEq] at given
        simp [← given, toValue, suits, ScalarType.isIntegral]
      | real | doublePrecision | numeric =>
        cases given
        simp [toValue, suits, ScalarType.isIntegral]
      | _ => cases given
    | string s =>
      change Constant.stringValue? type s = some value at given
      cases type with
      | smallint | integer | bigint | real | doublePrecision | numeric =>
        obtain ⟨_, -, rfl⟩ := Option.map_eq_some_iff.mp given
        simp [toValue, suits, ScalarType.matchesText]
      | boolean => cases given
      | _ =>
        cases given
        simp [toValue, suits, ScalarType.matchesText]
  · cases read

theorem castText_toValue (id : ResourceId) : Rendered.castText id.toValue = [] := by
  cases id <;> rfl

/-- **The value for the column is converted if and only if the type is.** -/
theorem castText_eq_iff_not_isConverted {enumTypes : Dict EnumType} {type : ScalarType}
    {id : ResourceId} {value : Value}
    (read : Constant.toValue enumTypes type none id.toJson = .ok value) :
    Rendered.castText value = Rendered.castText id.toValue ↔ type.isConverted = false := by
  have erased := Constant.erase_toValue id.toJson_ne_null read
  have same : Rendered.castText value = Rendered.castText value.erase := by
    cases value <;> rfl
  rw [same, erased, castText_toValue]
  cases type <;> simp [Constant.erased, Rendered.castText, ScalarType.isConverted]

end ResourceId

/-! ### Reads -/

section Reads

open Compile (Yields)

variable {schema : Schema} {resourceType : String} {info : ResourceType} {column : ColumnInfo}

/-- The column behind the identifier. -/
theorem Schema.field_id (known : schema.resourceType resourceType = .ok info)
    (declared : info.columns.get? info.idColumn = some column) :
    schema.field resourceType Schema.idField = .ok ⟨info.idColumn, column.type, none⟩ := by
  unfold Schema.field
  rw [known]
  simp only [CompileError.ofLookup, Schema.fieldSource, bind, Except.bind, if_true, declared]
  rfl

/-- The identifier is found in the table itself, with the type of its column. -/
theorem Compile.yields_idColumn (known : schema.resourceType resourceType = .ok info)
    (declared : info.columns.get? info.idColumn = some column) {table : Table}
    (stored : table.resourceType = resourceType) (p : Progress) :
    Yields (Compile.pendingOperand schema table (.field [Schema.idField])) p (fun pending _ =>
      ∃ c : Column,
        pending = .typed (.column c) (.field ⟨info.idColumn, column.type, none⟩)) := by
  have found : Yields (Compile.fieldColumn schema table [Schema.idField]) p (fun result _ =>
      result.2 = ⟨info.idColumn, column.type, none⟩) := by
    -- Nothing is followed before the only step of the path.
    have start : Yields (Compile.followToOne schema table []) p (fun owner _ => owner = table) :=
      Compile.yields_pure rfl
    refine start.bind ?_
    rintro _ q rfl
    refine Compile.yields_lift_bind fun field given => ?_
    have same := Schema.field_id known declared
    rw [← stored] at same
    cases same.symm.trans given
    exact Compile.yields_tree_bind fun c _ => Compile.yields_pure rfl
  refine found.bind ?_
  rintro ⟨c, field⟩ q same
  cases same
  exact Compile.yields_pure ⟨c, rfl⟩

/-- **A filter gives the identifier the type of its column.** -/
theorem Filter.yields_identifies (known : schema.resourceType resourceType = .ok info)
    (declared : info.columns.get? info.idColumn = some column) (id : ResourceId) {table : Table}
    (stored : table.resourceType = resourceType) (p : Progress) :
    Yields ((Filter.identifies id).compile schema table) p (fun condition _ =>
      ∃ (c : Column) (name : String) (value : Value), condition = Condition.equals c ⟨name, value⟩
        ∧ Constant.toValue schema.enumTypes column.type none id.toJson = .ok value) := by
  refine (Compile.yields_idColumn known declared stored p).bind ?_
  rintro _ q ⟨c, rfl⟩
  have constant : Yields (Compile.pendingOperand schema table (.constant id.toJson)) q
      (fun pending _ => pending = .constant id.toJson) :=
    Compile.yields_pure (if_neg id.toJson_ne_null)
  refine constant.bind ?_
  rintro _ r rfl
  refine Yields.bind (Q := fun operand _ => operand = .column c) (Compile.yields_pure rfl) ?_
  rintro _ r rfl
  have typed : Yields (Compile.finishOperand schema (.field ⟨info.idColumn, column.type, none⟩)
      (.constant id.toJson)) r (fun operand _ => ∃ name value, operand = .parameter ⟨name, value⟩
        ∧ Constant.toValue schema.enumTypes column.type none id.toJson = .ok value) :=
    Compile.yields_lift_bind fun value given =>
      Compile.yields_newParameter_bind (Compile.yields_pure ⟨_, value, rfl, given⟩)
  refine typed.bind ?_
  rintro _ r ⟨name, value, rfl, given⟩
  exact Compile.yields_pure ⟨c, name, value, rfl, given⟩

end Reads

/-! ### Writes -/

/-- **A statement selects the row of an identifier**, which is sent as it is. -/
def Sql.Statement.SelectsById (s : Sql.Statement) (idColumn : String) (id : ResourceId) : Prop :=
  ∃ name, s.filter? = some (Condition.equals (ChangeSet.plainColumn idColumn) ⟨name, id.toValue⟩)

section Writes

variable {schema : Schema} {resourceType : String} {info : ResourceType}

/-- **A resource is removed by its identifier.** -/
theorem planDelete_selectsById (known : schema.resourceType resourceType = .ok info)
    (id : ResourceId) :
    ∃ step, planDelete schema resourceType id = .ok step
      ∧ step.statement.SelectsById info.idColumn id := by
  refine ⟨⟨.delete info.tableName (ChangeSet.isOneOf Names.fresh info.idColumn [id]), .exactly 1⟩,
    ?_, _, rfl⟩
  rw [planDelete, known]
  rfl

/-- **The columns of a resource are written by its identifier.** -/
theorem ChangeSet.planUpdate_selectsById (known : schema.resourceType resourceType = .ok info)
    {c : ChangeSet} (typed : c.resourceType = resourceType) {id : ResourceId}
    (identified : c.resourceId? = some id) (changed : c.columns ≠ []) {steps : List MutationStep}
    (planned : c.planUpdate schema = .ok steps) :
    ∃ step ∈ steps, step.statement.SelectsById info.idColumn id := by
  obtain ⟨-, id', release, info', related, identified', -, known', -, rfl⟩ :=
    planUpdate_eq_ok_iff.mp planned
  rw [typed] at known'
  cases known.symm.trans known'
  cases identified.symm.trans identified'
  have own : ownStep info c id = [⟨.update info.tableName (assignments Names.fresh c.columns).1
      (isOneOf (assignments Names.fresh c.columns).2 info.idColumn [id]), .exactly 1⟩] := by
    unfold ownStep
    rw [if_neg (by simpa using changed)]
  rw [own]
  exact ⟨_, List.mem_append_left _ (List.mem_append_right _ (.head _)), _, rfl⟩

end Writes

/-! ### Reads and writes -/

/-- **When reads and writes bind an identifier alike.**  Let the column of the identifier be
declared and the filter on the identifier compile.  The filter binds one value.  The plans that
remove or change the resource bind the identifier as it is.  The two are equal if and only if the
identifier suits the column, and they are converted alike if and only if the type of the column is
not converted. -/
theorem identifiers_bound_alike_iff {schema : Schema} {resourceType : String} {info : ResourceType}
    {column : ColumnInfo} (known : schema.resourceType resourceType = .ok info)
    (declared : info.columns.get? info.idColumn = some column) (id : ResourceId) {table : Table}
    (stored : table.resourceType = resourceType) {p q : Progress} {condition : Condition}
    (read : (Filter.identifies id).compile schema table p = .ok (condition, q)) :
    ∃ value, condition.parameters.map Parameter.value = [value]
      ∧ (∃ step, planDelete schema resourceType id = .ok step
        ∧ step.statement.SelectsById info.idColumn id)
      ∧ (∀ (c : ChangeSet) (steps : List MutationStep), c.resourceType = resourceType →
        c.resourceId? = some id → c.columns ≠ [] → c.planUpdate schema = .ok steps →
        ∃ step ∈ steps, step.statement.SelectsById info.idColumn id)
      ∧ (value = id.toValue ↔ id.suits column.type = true)
      ∧ (Rendered.castText value = Rendered.castText id.toValue
        ↔ column.type.isConverted = false) := by
  obtain ⟨c, name, value, rfl, given⟩ :=
    Filter.yields_identifies known declared id stored p condition q read
  refine ⟨value, ?_, planDelete_selectsById known id, ?_, ?_, ?_⟩
  · simp [Condition.equals, Sql.Operand.parameters, Sql.Operand.pieces, Sql.Piece.parameter?]
  · exact fun c steps typed identified changed planned =>
      ChangeSet.planUpdate_selectsById known typed identified changed planned
  · exact ResourceId.toValue_eq_iff_suits given
  · exact ResourceId.castText_eq_iff_not_isConverted given

/-- The table of people. -/
def Sql.Table.people : Table :=
  ⟨"people", "People", ⟨1⟩, ["Id", "FirstName", "LastName"], ["AccountId"]⟩

/-- A person with an integer for an identifier, in a column of integers. -/
theorem identifiers_bound_alike_person :
    ∃ condition q, (Filter.identifies (.int 7)).compile Schema.todo .people Progress.start
        = .ok (condition, q)
      ∧ condition.parameters.map Parameter.value = [.int 7]
      ∧ (∃ step, planDelete Schema.todo "people" (.int 7) = .ok step
        ∧ step.statement.SelectsById "Id" (.int 7))
      ∧ ∃ steps, ChangeSet.person.planUpdate Schema.todo = .ok steps
        ∧ ∃ step ∈ steps, step.statement.SelectsById "Id" (.int 7) := by
  obtain ⟨⟨condition, q⟩, read⟩ := exists_of_isOk (show ((Filter.identifies (.int 7)).compile
    Schema.todo .people Progress.start).isOk = true by decide +kernel)
  have known : Schema.todo.resourceType "people" = .ok Schema.Todo.people := by decide +kernel
  have declared : Schema.Todo.people.columns.get? Schema.Todo.people.idColumn
      = some ⟨.bigint, false⟩ := by decide +kernel
  obtain ⟨steps, planned⟩ := exists_of_isOk
    (show (ChangeSet.person.planUpdate Schema.todo).isOk = true by decide +kernel)
  obtain ⟨value, bound, deleted, updated, alike, -⟩ :=
    identifiers_bound_alike_iff known declared (.int 7) rfl read
  rw [alike.mpr rfl] at bound
  exact ⟨condition, q, read, bound, deleted, steps, planned,
    updated ChangeSet.person steps rfl rfl nofun planned⟩

/-- Sessions, which are identified by a text that the database converts. -/
def Schema.sessions : Schema where
  resourceTypes := Dict.ofList [("sessions", {
    tableName := "Sessions"
    idColumn := "Id"
    columns := Dict.ofList [("Id", ⟨.uuid, false⟩)]
    attributes := ∅
    relationships := ∅ })]
  enumTypes := ∅

/-- The identifier of a session. -/
def ResourceId.session : ResourceId :=
  .string "3f2b8c1e-5d6a-4b7c-9e0f-1a2b3c4d5e6f"

/-- **The identifier of a session is converted in reads, but not in writes.** -/
theorem not_bound_alike_session :
    ∃ query step, Compile.run (Compile.countQuery Schema.sessions "sessions"
          (some (.identifies .session))) = .ok query
      ∧ planDelete Schema.sessions "sessions" .session = .ok step
      ∧ query.render.params = [("@p1", .cast "3f2b8c1e-5d6a-4b7c-9e0f-1a2b3c4d5e6f" .uuid)]
      ∧ step.render.params = [("@p1", .string "3f2b8c1e-5d6a-4b7c-9e0f-1a2b3c4d5e6f")]
      ∧ Rendered.placeholder query.render.params "@p1" = .ok "$1::uuid".toList
      ∧ Rendered.placeholder step.render.params "@p1" = .ok "$1".toList := by
  have read : (Compile.run (Compile.countQuery Schema.sessions "sessions"
      (some (.identifies .session)))).toOption.map (fun query => query.render.params)
        = some [("@p1", .cast "3f2b8c1e-5d6a-4b7c-9e0f-1a2b3c4d5e6f" .uuid)] := by decide +kernel
  have written : (planDelete Schema.sessions "sessions" .session).toOption.map
      (fun step => step.render.params)
        = some [("@p1", .string "3f2b8c1e-5d6a-4b7c-9e0f-1a2b3c4d5e6f")] := by decide +kernel
  obtain ⟨query, counted⟩ := exists_of_isOk (show (Compile.run (Compile.countQuery Schema.sessions
    "sessions" (some (.identifies .session)))).isOk = true by decide +kernel)
  obtain ⟨step, planned⟩ := exists_of_isOk
    (show (planDelete Schema.sessions "sessions" .session).isOk = true by decide +kernel)
  rw [counted] at read
  rw [planned] at written
  have read : query.render.params = _ := Option.some.inj read
  have written : step.render.params = _ := Option.some.inj written
  refine ⟨query, step, counted, planned, read, written, ?_, ?_⟩
  · rw [read]
    decide
  · rw [written]
    decide

end ResourceQuery
