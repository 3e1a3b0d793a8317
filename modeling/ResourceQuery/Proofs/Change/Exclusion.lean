import ResourceQuery.Proofs.Change.Application
import ResourceQuery.Proofs.Change.Plans
import ResourceQuery.Proofs.Change.Repetition
import ResourceQuery.Proofs.Compile.Correctness

/-!
# Taking a resource through a one-to-one relationship

At most one row may refer to a resource through a one-to-one relationship.  So a resource is taken
away from whichever row refers to it before another row does, and no two rows refer to it at any
time.

## Main Definitions

- `Schema.OneToOne`: a one-to-one relationship whose key a column of the resource stands for.
- `Snapshot.OnlyTakes`: a snapshot changes no relationship but one, which is set to a resource.
- `Vacant`: no row of a table refers to a resource.

## Main Statements

- `vacant_takenAway`: taking a resource away makes room for it.
- `Vacant.distinct_write`, `Vacant.distinct_append`: filling the room keeps keys distinct.
- `ChangeSet.taken_exclusively`: no key occurs twice while a resource is taken, and in the end one
  row refers to it.
-/

namespace ResourceQuery

open Sql (Engine Database)
open MutationStep (applyAll statesAfter)

variable {e : Engine}

/-- **A one-to-one relationship** that the resource itself stores, in a column that stands for
it. -/
structure Schema.OneToOne (schema : Schema) (resourceType name : String) (key : ForeignKey) :
    Prop where
  resolved : schema.foreignKeyOf resourceType name = .ok key
  owned : key.ownedBy = .left
  shown : ∃ fields, schema.columnFields resourceType = .ok fields
    ∧ (key.column, some (.ofRelationship resourceType name)) ∈ fields
  exclusive : ∃ relationship inverse back, schema.relationship resourceType name = .ok relationship
    ∧ relationship.inverse? = some inverse
    ∧ schema.relationship relationship.target inverse = .ok back ∧ back.isToOne = true

/-- The key of a one-to-one relationship is not the identifier. -/
theorem Schema.OneToOne.column_ne {schema : Schema} {resourceType name : String} {key : ForeignKey}
    {info : ResourceType} (oneToOne : schema.OneToOne resourceType name key)
    (known : schema.resourceType resourceType = .ok info) : key.column ≠ info.idColumn := by
  obtain ⟨fields, mapped, shown⟩ := oneToOne.shown
  rcases (Schema.mem_columnFields known mapped _).mp shown with ⟨-, no⟩ | ⟨-, notId, -⟩
  · cases no
  · exact notId

/-- **A snapshot takes a resource** through one relationship, and changes no other relationship. -/
structure Snapshot.OnlyTakes (after : Snapshot) (before? : Option Snapshot) (name : String)
    (taken : ResourceId) : Prop where
  takes : ∃ old, after.ChangesToOne before? name old (some taken)
  toOne : ∀ other old new, after.ChangesToOne before? other old new → other = name
  toMany : ∀ other old new, ¬ after.ChangesToMany before? other old new

/-! ### Making room -/

/-- **There is room for a resource** in a table: no row refers to it, and neither identifiers nor
keys occur twice. -/
structure Vacant (rows : List (Sql.Row e)) (idColumn column : String) (taken : ResourceId) :
    Prop where
  unique : e.Distinct rows idColumn
  exclusive : e.Distinct rows column
  free : ∀ row ∈ rows, row.holds column taken = false

variable {rows : List (Sql.Row e)} {idColumn column : String} {taken id : ResourceId}

/-- **Taking a resource away makes room for it.** -/
theorem vacant_takenAway (unique : e.Distinct rows idColumn) (exclusive : e.Distinct rows column)
    (separate : column ≠ idColumn) (nullable : Bool) :
    Vacant (rows.filterMap (ChangeSet.takenAway column [taken] column nullable)) idColumn column
      taken := by
  refine ⟨unique.filterMap fun row other kept => .inl (ChangeSet.eq_of_takenAway kept separate),
    exclusive.filterMap fun row other kept => ?_, fun other mem => ?_⟩
  · rcases ChangeSet.takenAway_eq_some.mp kept with ⟨-, -, rfl⟩ | ⟨-, rfl⟩
    · exact .inr (Function.update_self column none row)
    · exact .inl rfl
  · obtain ⟨row, -, kept⟩ := List.mem_filterMap.mp mem
    rcases ChangeSet.takenAway_eq_some.mp kept with ⟨-, -, rfl⟩ | ⟨away, rfl⟩
    · simp [Sql.Row.holds]
    · rwa [Sql.Row.holdsOneOf_singleton] at away

/-! ### Filling the room -/

/-- **The row of a resource may refer to a resource that no other row refers to.** -/
theorem Vacant.distinct_write (vacant : Vacant rows idColumn column taken)
    {write : Sql.Row e → Sql.Row e}
    (written : ∀ row, write row column = e.parameter taken.toValue) :
    e.Distinct (rows.map (fun row => if row.holds idColumn id then write row else row)) column := by
  refine List.pairwise_map.mpr ((vacant.unique.and vacant.exclusive).imp_of_mem ?_)
  rintro a b inA inB ⟨notSame, different⟩
  cases ofA : a.holds idColumn id <;> cases ofB : b.holds idColumn id
  · simpa using different
  · simpa [written, Sql.Row.holds] using vacant.free a inA
  · simpa [written, Sql.Row.holds, Engine.same_comm] using vacant.free b inB
  · -- Two rows of one resource would have the same identifier.
    rw [Sql.Row.holds, Engine.same_comm] at ofA ofB
    exact absurd (Engine.same_of_same ofA ofB) (by simp [notSame])

/-- If the row of a resource was found, it is the one that refers to the resource that was taken. -/
theorem Vacant.filter_write (apart : e.TellsApart) (vacant : Vacant rows idColumn column taken)
    {write : Sql.Row e → Sql.Row e}
    (written : ∀ row, write row column = e.parameter taken.toValue)
    (found : rows.countP (fun row => row.holds idColumn id) = 1) :
    ∃ row ∈ rows, row.holds idColumn id = true
      ∧ (rows.map (fun row => if row.holds idColumn id then write row else row)).filter
        (fun row => row.holds column taken) = [write row] := by
  obtain ⟨row, only⟩ := List.length_eq_one_iff.mp (List.countP_eq_length_filter ▸ found)
  have mem : row ∈ rows.filter (fun row => row.holds idColumn id) := by simp [only]
  obtain ⟨listed, own⟩ := List.mem_filter.mp mem
  refine ⟨row, listed, own, ?_⟩
  have taking : rows.filter ((fun row => row.holds column taken) ∘
      fun row => if row.holds idColumn id then write row else row) = [row] := by
    rw [← only]
    refine List.filter_congr fun other inRows => ?_
    cases ofOther : other.holds idColumn id with
    | false => simp [ofOther, vacant.free other inRows]
    | true => simp [ofOther, apart.holds_of_eq (written other)]
  rw [List.filter_map, taking]
  simp [own]

/-- **A new row may refer to a resource that no other row refers to.** -/
theorem Vacant.distinct_append (vacant : Vacant rows idColumn column taken) {row : Sql.Row e}
    (refers : row column = e.parameter taken.toValue) : e.Distinct (rows ++ [row]) column := by
  refine List.pairwise_append.mpr ⟨vacant.exclusive, List.pairwise_singleton _ _, ?_⟩
  intro other mem new inNew
  rw [List.mem_singleton.mp inNew, refers]
  exact vacant.free other mem

/-- The new row is the one that refers to the resource. -/
theorem Vacant.filter_append (apart : e.TellsApart) (vacant : Vacant rows idColumn column taken)
    {row : Sql.Row e} (refers : row column = e.parameter taken.toValue) :
    (rows ++ [row]).filter (fun row => row.holds column taken) = [row] := by
  have others : rows.filter (fun row => row.holds column taken) = [] :=
    List.filter_eq_nil_iff.mpr fun other mem => by simp [vacant.free other mem]
  simp [others, apart.holds_of_eq refers]

/-! ### Changes that take a resource -/

namespace ChangeSet

variable {schema : Schema} {resourceType name : String} {info : ResourceType} {key : ForeignKey}
variable {before? : Option Snapshot} {after : Snapshot} {changes : ChangeSet}

/-- The relationship that takes a resource is the only one that is detected. -/
theorem detect_onlyTakes (detected : detect schema resourceType before? after = .ok changes)
    (only : after.OnlyTakes before? name taken) (oneToOne : schema.OneToOne resourceType name key) :
    ∃ old, changes = ofParts resourceType changes.resourceId? changes.columns
      [.own (some ⟨name, old, taken⟩) none] := by
  obtain ⟨info, fields, columns, found, known, checked, -, -, compared, rfl⟩ :=
    detect_eq_ok_iff.mp detected
  obtain ⟨old, takes⟩ := only.takes
  obtain ⟨relationship, inverse, back, declared, inverted, led, backToOne⟩ := oneToOne.exclusive
  obtain ⟨_, declared', toOne⟩ := toOne_of_checkNames checked takes.1
  cases declared.symm.trans declared'
  have exclusive : inverseIsToOne schema relationship = .ok true := by
    simp only [inverseIsToOne, inverted, led, bind, Except.bind, backToOne]
    rfl
  have changed : relationshipChange? schema resourceType before? after name relationship
      = .ok (some (.own (some ⟨name, old, taken⟩) none)) := by
    rw [relationshipChange?_of_changesToOne toOne takes]
    simp only [toOneChange, oneToOne.resolved, oneToOne.owned, exclusive, bind, Except.bind]
    rfl
  have alone := relationshipChanges_eq_singleton info.relationships.keys_nodup
    (mem_entries_of_relationship known declared) changed fun r _ different =>
      relationshipChange?_eq_none r.2
        (fun old new changed => different (only.toOne r.1 old new changed)) (only.toMany r.1)
  cases compared.symm.trans alone
  exact ⟨old, rfl⟩

/-- The key of a resource that is taken is written. -/
theorem lookup_key (detected : detect schema resourceType before? after = .ok changes)
    (only : after.OnlyTakes before? name taken) (oneToOne : schema.OneToOne resourceType name key) :
    changes.columns.lookup key.column = some taken.toValue := by
  obtain ⟨old, takes⟩ := only.takes
  obtain ⟨fields, mapped, shown⟩ := oneToOne.shown
  obtain ⟨info, _, columns, _, known, -, mapped', walked, -, rfl⟩ := detect_eq_ok_iff.mp detected
  cases mapped.symm.trans mapped'
  have held := lookup_changedColumns walked (Schema.nodup_columnFields known mapped) shown
  simp only [columnValue?, changedToOne?_eq_some.mpr takes, if_true, Option.map_some] at held
  exact (Except.ok.inj held).symm

/-- The identifier of a resource is not written, or stays what it is. -/
theorem lookup_idColumn (detected : detect schema resourceType before? after = .ok changes)
    (known : schema.resourceType resourceType = .ok info)
    (identified : changes.resourceId? = some id)
    {value : Sql.Value} (written : changes.columns.lookup info.idColumn = some value) :
    value = id.toValue := by
  obtain ⟨_, fields, columns, _, known', -, mapped, walked, -, rfl⟩ := detect_eq_ok_iff.mp detected
  cases known.symm.trans known'
  have shown := (Schema.mem_columnFields known mapped (some .id)).mpr (.inl ⟨rfl, rfl⟩)
  have held := Except.ok.inj
    (lookup_changedColumns walked (Schema.nodup_columnFields known mapped) shown)
  rw [show columns.lookup info.idColumn = some value from written] at held
  split at held
  · obtain ⟨own, given, same⟩ := Option.map_eq_some_iff.mp held
    have same' : own = id := by simpa [ofParts, given] using identified
    rw [← same, same']
  · cases held

/-! ### Plans that take a resource -/

/-- The step that makes room for a resource: it is taken away from the row that refers to it. -/
def makeRoom (table : String) (key : ForeignKey) (taken : ResourceId) : MutationStep :=
  ⟨clearOrDelete table key.column key.nullable (isOneOf Names.fresh key.column [taken]), .atMostOne⟩

/-- Before a resource is taken, it is taken away from the row that refers to it. -/
theorem planRelease_onlyTakes (detected : detect schema resourceType before? after = .ok changes)
    (only : after.OnlyTakes before? name taken) (oneToOne : schema.OneToOne resourceType name key)
    (known : schema.resourceType resourceType = .ok info) :
    planRelease schema changes = .ok [makeRoom info.tableName key taken] := by
  obtain ⟨old, parts⟩ := detect_onlyTakes detected only oneToOne
  have step : releaseStep schema resourceType ⟨name, old, taken⟩
      = .ok (makeRoom info.tableName key taken) :=
    releaseStep_eq_ok_iff.mpr ⟨key, info, oneToOne.resolved, known, rfl⟩
  rw [parts]
  show CompileError.ofLookup ([_].mapM (releaseStep schema resourceType)) = _
  rw [List.mapM_cons, step]
  rfl

/-- An update that takes a resource makes room for it and writes to the row of its own. -/
theorem planUpdate_onlyTakes (detected : detect schema resourceType before? after = .ok changes)
    (only : after.OnlyTakes before? name taken) (oneToOne : schema.OneToOne resourceType name key)
    (known : schema.resourceType resourceType = .ok info)
    (identified : changes.resourceId? = some id) :
    changes.planUpdate schema = .ok [makeRoom info.tableName key taken,
      ⟨.update info.tableName (assignments Names.fresh changes.columns).1
        (isOneOf (assignments Names.fresh changes.columns).2 info.idColumn [id]), .exactly 1⟩] := by
  obtain ⟨old, parts⟩ := detect_onlyTakes detected only oneToOne
  have changed : ¬ changes.columns.isEmpty := by
    intro none
    have refers := lookup_key detected only oneToOne
    rw [List.isEmpty_iff.mp none] at refers
    cases refers
  have own : ownStep info changes id = [⟨.update info.tableName
      (assignments Names.fresh changes.columns).1
      (isOneOf (assignments Names.fresh changes.columns).2 info.idColumn [id]), .exactly 1⟩] :=
    if_neg changed
  refine planUpdate_eq_ok_iff.mpr ⟨by rw [parts]; rfl, id, _, info, [], identified,
    planRelease_onlyTakes detected only oneToOne known, ?_, ?_, ?_⟩
  · rw [parts]
    exact known
  · rw [parts]
    rfl
  · rw [own]
    rfl

/-- A creation that takes a resource makes room for it before a row is added. -/
theorem planCreate_onlyTakes (detected : detect schema resourceType before? after = .ok changes)
    (only : after.OnlyTakes before? name taken) (oneToOne : schema.OneToOne resourceType name key)
    (known : schema.resourceType resourceType = .ok info) :
    changes.planCreate schema = .ok ⟨[makeRoom info.tableName key taken],
      .insert info.tableName (assignments Names.fresh changes.columns).1 info.idColumn,
      .returnsId⟩ := by
  obtain ⟨old, parts⟩ := detect_onlyTakes detected only oneToOne
  refine planCreate_eq_ok_iff.mpr ⟨by rw [parts]; rfl, _, info,
    planRelease_onlyTakes detected only oneToOne known, ?_, rfl⟩
  rw [parts]
  exact known

variable {defaults : Sql.Row e} {db : Database e}

/-- **Room is made before it is filled.**  What holds of every database with room for a resource
once the room is filled holds at the end of a run that makes room first. -/
theorem filled_after_release {table : String} {fill : MutationStep} {P : Database e → Prop}
    (separate : key.column ≠ idColumn) (unique : e.Distinct (db table) idColumn)
    (exclusive : e.Distinct (db table) key.column)
    (fills : ∀ room : Database e, Vacant (room table) idColumn key.column taken →
      e.Distinct ((fill.statement.effect defaults room).1 table) key.column
        ∧ ∀ final, fill.applyTo defaults room = some final → P final) :
    (∀ state ∈ statesAfter defaults [makeRoom table key taken, fill] db,
        e.Distinct (state table) key.column)
      ∧ ∀ final, applyAll defaults [makeRoom table key taken, fill] db = some final →
        P final := by
  have vacant : Vacant (((makeRoom table key taken).statement.effect defaults db).1 table)
      idColumn key.column taken := by
    simp only [makeRoom, effect_clearOrDelete, Function.update_self]
    exact vacant_takenAway unique exclusive separate key.nullable
  constructor
  · intro state mem
    rcases MutationStep.mem_statesAfter_cons.mp mem with rfl | ⟨room, applied, mem⟩
    · exact vacant.exclusive
    · obtain ⟨-, rfl⟩ := MutationStep.applyTo_eq_some.mp applied
      rcases MutationStep.mem_statesAfter_cons.mp mem with rfl | ⟨_, -, mem⟩
      · exact (fills _ vacant).1
      · cases mem
  · intro final applied
    obtain ⟨room, released, applied⟩ := Option.bind_eq_some_iff.mp applied
    obtain ⟨-, rfl⟩ := MutationStep.applyTo_eq_some.mp released
    rw [MutationStep.applyAll_singleton] at applied
    exact (fills _ vacant).2 final applied

/-- Writing to the row of a resource fills the room. -/
theorem fills_update (apart : e.TellsApart) {table : String} {names : Names}
    {written : List Sql.Assignment} (vacant : Vacant (db table) idColumn column taken)
    (refers : ∀ row : Sql.Row e, row.write db written column = e.parameter taken.toValue)
    (identifies : ∀ row : Sql.Row e, row.holds idColumn id = true →
      (row.write db written).holds idColumn id = true) :
    let fill : MutationStep := ⟨.update table written (isOneOf names idColumn [id]), .exactly 1⟩
    e.Distinct ((fill.statement.effect defaults db).1 table) column
      ∧ ∀ final, fill.applyTo defaults db = some final →
        ∃ row, (final table).filter (fun row => row.holds column taken) = [row]
          ∧ row.holds idColumn id = true := by
  intro fill
  have effect : fill.statement.effect defaults db = (Function.update db table ((db table).map
        (fun row => if row.holds idColumn id then row.write db written else row)),
      (db table).countP (fun row => row.holds idColumn id)) := by
    simp only [fill, Sql.Statement.effect, isTrue_isOneOf, Sql.Row.holdsOneOf_singleton]
  constructor
  · simpa only [effect, Function.update_self] using vacant.distinct_write refers
  · intro final applied
    obtain ⟨met, rfl⟩ := MutationStep.applyTo_eq_some.mp applied
    rw [effect] at met
    obtain ⟨row, -, own, alone⟩ := vacant.filter_write apart refers (of_decide_eq_true met)
    refine ⟨row.write db written, ?_, identifies row own⟩
    simpa only [effect, Function.update_self] using alone

/-- Adding the row of a resource fills the room. -/
theorem fills_insert (apart : e.TellsApart) {table : String} {written : List Sql.Assignment}
    (vacant : Vacant (db table) idColumn column taken)
    (refers : defaults.write db written column = e.parameter taken.toValue) :
    let fill : MutationStep := ⟨.insert table written idColumn, .returnsId⟩
    e.Distinct ((fill.statement.effect defaults db).1 table) column
      ∧ ∀ final, fill.applyTo defaults db = some final →
        ∃ row, (final table).filter (fun row => row.holds column taken) = [row]
          ∧ (final table).getLast? = some row := by
  intro fill
  constructor
  · simpa only [fill, Sql.Statement.effect, Function.update_self]
      using vacant.distinct_append refers
  · intro final applied
    obtain ⟨-, rfl⟩ := MutationStep.applyTo_eq_some.mp applied
    refine ⟨defaults.write db written, ?_, ?_⟩
    · simpa only [fill, Sql.Statement.effect, Function.update_self]
        using vacant.filter_append apart refers
    · simp [fill, Sql.Statement.effect]

/-- **A resource is taken exclusively.**  Take a snapshot whose only change of a relationship sets a
one-to-one relationship to some resource, and a database in which neither identifiers nor keys occur
twice.  An update and a creation can be planned; no key occurs twice after any of their statements,
and if all of them can be applied, the row of the resource itself is the only one that refers to the
resource that was taken. -/
theorem taken_exclusively (apart : e.TellsApart)
    (detected : detect schema resourceType before? after = .ok changes)
    (only : after.OnlyTakes before? name taken) (oneToOne : schema.OneToOne resourceType name key)
    (known : schema.resourceType resourceType = .ok info) (defaults : Sql.Row e) (db : Database e)
    (unique : e.Distinct (db info.tableName) info.idColumn)
    (exclusive : e.Distinct (db info.tableName) key.column) :
    (∀ id, changes.resourceId? = some id →
      ∃ steps, changes.planUpdate schema = .ok steps
        ∧ (∀ state ∈ statesAfter defaults steps db, e.Distinct (state info.tableName) key.column)
        ∧ ∀ final, applyAll defaults steps db = some final →
          ∃ row, (final info.tableName).filter (fun row => row.holds key.column taken) = [row]
            ∧ row.holds info.idColumn id = true)
    ∧ ∃ plan, changes.planCreate schema = .ok plan
      ∧ (∀ state ∈ statesAfter defaults (plan.beforeInsert ++ [plan.insert]) db,
          e.Distinct (state info.tableName) key.column)
      ∧ ∀ final, applyAll defaults (plan.beforeInsert ++ [plan.insert]) db = some final →
        ∃ row, (final info.tableName).filter (fun row => row.holds key.column taken) = [row]
          ∧ (final info.tableName).getLast? = some row := by
  have separate := oneToOne.column_ne known
  have written (row : Sql.Row e) (room : Database e) :
      row.write room (assignments Names.fresh changes.columns).1 key.column
        = e.parameter taken.toValue := by
    rw [write_assignments, lookup_key detected only oneToOne]
  constructor
  · intro id identified
    refine ⟨_, planUpdate_onlyTakes detected only oneToOne known identified,
      filled_after_release separate unique exclusive fun room vacant =>
        fills_update apart vacant (fun row => written row room) fun row own => ?_⟩
    rw [Sql.Row.holds, write_assignments]
    split
    · rename_i value found
      rw [lookup_idColumn detected known identified found]
      exact (apart id id).mpr rfl
    · exact own
  · exact ⟨_, planCreate_onlyTakes detected only oneToOne known,
      filled_after_release separate unique exclusive fun room vacant =>
        fills_insert apart vacant (written defaults room)⟩

/-- Two people with an account each. -/
def accountHolders : Database Outline.engine := fun name =>
  if name = "People" then [
    Outline.row [("Id", .int 1), ("LastName", .string "Smith"), ("AccountId", .int 7)],
    Outline.row [("Id", .int 2), ("LastName", .string "Jones"), ("AccountId", .int 8)]]
  else []

/-- The first of them. -/
def holderBefore : Snapshot :=
  { Snapshot.empty with
    id? := some (.int 1), toOne := Dict.ofList [("account", some (.int 7))] }

/-- The first of them under another name, with the account of the second. -/
def holderAfter : Snapshot :=
  { Snapshot.empty with
    attributes := Dict.ofList [("lastName", .string "Brown")]
    toOne := Dict.ofList [("account", some (.int 8))] }

theorem oneToOne_account :
    Schema.todo.OneToOne "people" "account" ⟨.left, "AccountId", true⟩ where
  resolved := by decide +kernel
  owned := rfl
  shown := ⟨[("Id", some .id), ("AccountId", some (.ofRelationship "people" "account")),
    ("FirstName", some (.ofAttribute "firstName")), ("LastName", some (.ofAttribute "lastName"))],
    by decide +kernel, by decide +kernel⟩
  exclusive := ⟨⟨"accounts", .one, ⟨.left, "AccountId"⟩, some "person"⟩, "person",
    ⟨"people", .one, ⟨.right, "AccountId"⟩, some "account"⟩, by decide +kernel, rfl,
    by decide +kernel, rfl⟩

/-- The account of the second person is taken by the first. -/
theorem taken_exclusively_account :
    holderAfter.OnlyTakes (some holderBefore) "account" (.int 8)
      ∧ Outline.engine.Distinct (accountHolders "People") "AccountId"
      ∧ ∃ changes steps final,
        detect Schema.todo "people" (some holderBefore) holderAfter = .ok changes
        ∧ changes.columns = [("AccountId", .int 8), ("LastName", .string "Brown")]
        ∧ changes.planUpdate Schema.todo = .ok steps
        ∧ (∀ state ∈ statesAfter (Outline.row []) steps accountHolders,
          Outline.engine.Distinct (state "People") "AccountId")
        ∧ applyAll (Outline.row []) steps accountHolders = some final
        ∧ ∃ row, (final "People").filter (fun row => row.holds "AccountId" (.int 8)) = [row]
          ∧ row.holds "Id" (.int 1) = true := by
  have detected : detect Schema.todo "people" (some holderBefore) holderAfter
      = .ok (ofParts "people" (some (.int 1)) [("AccountId", .int 8), ("LastName", .string "Brown")]
        [.own (some ⟨"account", some (.int 7), .int 8⟩) none]) := by decide +kernel
  have mentioned : holderAfter.toOne.entries = [("account", some (.int 8))] := by decide +kernel
  have only : holderAfter.OnlyTakes (some holderBefore) "account" (.int 8) := by
    refine ⟨⟨some (.int 7), changedToOne?_eq_some.mp (by decide +kernel)⟩, ?_, ?_⟩
    · rintro other old new ⟨set, -⟩
      have mem := Dict.mem_entries_iff.mpr set
      rw [mentioned, List.mem_singleton] at mem
      exact congrArg Prod.fst mem
    · rintro other old new ⟨⟨⟩, -⟩
  have known : Schema.todo.resourceType "people" = .ok Schema.Todo.people := by decide +kernel
  have exclusive : Outline.engine.Distinct (accountHolders "People") "AccountId" := by
    decide +kernel
  obtain ⟨update, -⟩ := taken_exclusively Engine.tellsApart_outline detected only oneToOne_account
    known (Outline.row []) accountHolders (by decide +kernel) exclusive
  obtain ⟨steps, planned, between, atLast⟩ := update (.int 1) rfl
  have succeeds : (((ofParts "people" (some (.int 1))
      [("AccountId", .int 8), ("LastName", .string "Brown")]
      [.own (some ⟨"account", some (.int 7), .int 8⟩) none]).planUpdate Schema.todo).toOption.bind
        (fun steps => applyAll (Outline.row []) steps accountHolders)).isSome = true := by
    decide +kernel
  rw [planned] at succeeds
  obtain ⟨final, applied⟩ := Option.isSome_iff_exists.mp succeeds
  exact ⟨only, exclusive, _, steps, final, detected, rfl, planned, between, applied,
    atLast final applied⟩

end ChangeSet

end ResourceQuery
