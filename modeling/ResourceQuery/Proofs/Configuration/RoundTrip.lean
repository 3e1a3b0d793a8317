import ResourceQuery.Configuration.Basic
import ResourceQuery.Proofs.Json.Decoding
import ResourceQuery.Proofs.Json.RoundTrip

/-!
# Configurations are read back

The file that is written for a configuration is read as the same configuration.  Settings that are
left out because they have their defaults get them again, and times that are unlimited are written
as such, because the default is another.

## Main Definitions

- `Json.Plain`: a value without other numbers than integers, nested up to a depth.

## Main Statements

- `Schema.readsBack`, `PoolSettings.readsBack`, `QuerySettings.readsBack`: the parts of a
  configuration as documents.
- `Configuration.plain_toJson`: the document of a configuration is shallow and holds integers only.
- `Configuration.parse_write`: the file that is written is read as the configuration.
-/

namespace ResourceQuery

open Json (ReadsBack Reading)

/-! ### Plain documents -/

namespace Json

/-- **A plain value**: nested up to a depth, and all numbers in it are integers. -/
structure Plain (depth : Nat) (j : Json) : Prop where
  shallow : j.nesting ≤ depth
  integers : ∀ n ∈ j.numbers, ∃ value bounds, n = .int value bounds

namespace Plain

variable {depth : Nat}

theorem mono {e : Nat} {j : Json} (plain : Plain depth j) (le : depth ≤ e) : Plain e j :=
  ⟨Nat.le_trans plain.shallow le, plain.integers⟩

@[simp] theorem string (s : String) : Plain depth (.string s) :=
  ⟨Nat.zero_le _, by simp [numbers]⟩

@[simp] theorem bool (b : Bool) : Plain depth (.bool b) :=
  ⟨Nat.zero_le _, by simp [numbers]⟩

theorem null : Plain depth .null :=
  ⟨Nat.zero_le _, by simp [numbers]⟩

theorem int (value : Int) (bounds) : Plain depth (.number (.int value bounds)) :=
  ⟨Nat.zero_le _, fun _ mem => ⟨value, bounds, List.mem_singleton.mp mem⟩⟩

@[simp] theorem int64 (n : Int64) : Plain depth (ofInt64 n) :=
  int ..

@[simp] theorem uint32 (n : UInt32) : Plain depth (ofUInt32 n) :=
  int ..

@[simp] theorem uint64 (n : UInt64) : Plain depth (ofUInt64 n) :=
  int ..

@[simp] theorem option {α : Type} {write : α → Json} (each : ∀ a, Plain depth (write a)) :
    (a? : Option α) → Plain depth (ofOption write a?)
  | none => null
  | some a => each a

/-- An object is plain if its members are. -/
theorem object {members : List (String × Json)} (each : ∀ m ∈ members, Plain depth m.2) :
    Plain (depth + 1) (.object members) := by
  have parts : nestingMembers members ≤ depth
      ∧ ∀ n ∈ numbersMembers members, ∃ value bounds, n = .int value bounds := by
    induction members with
    | nil => simp [nestingMembers, numbersMembers]
    | cons member rest ih =>
      rw [List.forall_mem_cons] at each
      obtain ⟨shallow, integers⟩ := ih each.2
      refine ⟨Nat.max_le.mpr ⟨each.1.shallow, shallow⟩, fun n mem => ?_⟩
      rcases List.mem_append.mp mem with mem | mem
      · exact each.1.integers n mem
      · exact integers n mem
  exact ⟨Nat.succ_le_succ parts.1, parts.2⟩

theorem dict {α : Type} {write : α → Json} (each : ∀ a, Plain depth (write a)) (d : Dict α) :
    Plain (depth + 1) (ofDict write d) := by
  refine object fun m mem => ?_
  obtain ⟨e, -, rfl⟩ := List.mem_map.mp mem
  exact each e.2

/-- Plain values that are not too deep are read back. -/
theorem reread {j : Json} (plain : Plain depth j) (le : depth ≤ Reader.maxDepth) :
    j.reread 0 = .value j := by
  refine reread_eq_value (Nat.le_trans plain.shallow le) fun x finite mem => ?_
  obtain ⟨value, bounds, same⟩ := plain.integers _ mem
  cases same

end Plain

end Json

/-! ### Schemas -/

theorem ScalarType.readsBack : ReadsBack ScalarType.ofJson? ScalarType.toJson := fun t =>
  ofName?_name t

theorem ColumnInfo.readsBack : Reading.ReadsBack ColumnInfo.ofReading? ColumnInfo.toJson := by
  rintro ⟨type, nullable⟩
  have nullableBack : nullableOfJson? (nullableToJson nullable) = some nullable := by
    cases nullable <;> rfl
  simp [toJson, ofReading?, ScalarType.readsBack type, nullableBack]

theorem Cardinality.readsBack : ReadsBack Cardinality.ofJson? Cardinality.toJson := by
  intro cardinality
  cases cardinality <;> rfl

theorem Side.readsBack : ReadsBack Side.ofJson? Side.toJson := by
  intro side
  cases side <;> rfl

theorem KeyLocation.readsBack : Reading.ReadsBack KeyLocation.ofReading? KeyLocation.toJson := by
  rintro ⟨ownedBy, column⟩
  simp [toJson, ofReading?, Side.readsBack ownedBy]

/-- An optional text is read back. -/
theorem readsBack_optionalText :
    ReadsBack (Json.nullable? Json.string?) (Json.ofOption .string) :=
  Json.readsBack_string.nullable nofun

theorem Relationship.readsBack : Reading.ReadsBack Relationship.ofReading? Relationship.toJson := by
  rintro ⟨target, cardinality, foreignKey, inverse?⟩
  simp [toJson, ofReading?, Cardinality.readsBack cardinality, KeyLocation.readsBack foreignKey,
    readsBack_optionalText inverse?]

theorem Attribute.readsBack : Reading.ReadsBack Attribute.ofReading? Attribute.toJson := by
  rintro ⟨column?, enumType?⟩
  simp [toJson, ofReading?, readsBack_optionalText column?, readsBack_optionalText enumType?]

theorem ResourceType.readsBack : Reading.ReadsBack ResourceType.ofReading? ResourceType.toJson := by
  rintro ⟨tableName, idColumn, columns, attributes, relationships⟩
  simp [toJson, ofReading?, ColumnInfo.readsBack.dict columns, Attribute.readsBack.dict attributes,
    Relationship.readsBack.dict relationships]

/-- **Schemas are read back.** -/
theorem Schema.readsBack : Reading.ReadsBack Schema.ofReading? Schema.toJson := by
  rintro ⟨resourceTypes, enumTypes⟩
  have enumTypesBack : enumTypesOfJson? (enumTypesToJson enumTypes) = some enumTypes :=
    Json.readsBack_int64.dict.dict enumTypes
  simp [toJson, ofReading?, ResourceType.readsBack.dict resourceTypes, enumTypesBack]

/-! ### Settings -/

theorem QuerySettings.readsBack :
    Reading.ReadsBack QuerySettings.ofReading? QuerySettings.toJson := by
  rintro ⟨defaultPageSize, maxPageSize?, includeTotalCount⟩
  simp [toJson, ofReading?, Json.readsBack_uint32 defaultPageSize,
    Json.readsBack_uint32.nullable nofun maxPageSize?]

/-- **Settings of the pool are read back**, also times that are unlimited. -/
theorem PoolSettings.readsBack :
    Reading.ReadsBack PoolSettings.ofReading? PoolSettings.toJson := by
  rintro ⟨maxConnections, acquireTimeout, idleTimeout?, lifetime?⟩
  simp [toJson, ofReading?, Json.readsBack_uint32 maxConnections,
    Json.readsBack_uint64 acquireTimeout, Json.readsBack_uint64.nullable nofun idleTimeout?,
    Json.readsBack_uint64.nullable nofun lifetime?]

theorem Secret.readsBack : ReadsBack Secret.ofJson? Secret.toJson
  | .plain _ => rfl
  | .inEnvironment _ => by simp [toJson, ofJson?]

/-! ### Depth -/

theorem ColumnInfo.plain_toJson (c : ColumnInfo) : Json.Plain 1 c.toJson :=
  .object (by simp [ScalarType.toJson, nullableToJson])

theorem KeyLocation.plain_toJson (k : KeyLocation) : Json.Plain 1 k.toJson :=
  .object (by simp [Side.toJson])

theorem Attribute.plain_toJson (a : Attribute) : Json.Plain 1 a.toJson :=
  .object (by simp)

theorem Relationship.plain_toJson (r : Relationship) : Json.Plain 2 r.toJson := by
  have cardinality : Json.Plain 1 r.cardinality.toJson := by
    cases r.cardinality <;> exact .string _
  exact .object (by simp [cardinality, r.foreignKey.plain_toJson])

theorem ResourceType.plain_toJson (t : ResourceType) : Json.Plain 4 t.toJson := by
  have columns := (Json.Plain.dict ColumnInfo.plain_toJson t.columns).mono (e := 3) (by decide)
  have attributes :=
    (Json.Plain.dict Attribute.plain_toJson t.attributes).mono (e := 3) (by decide)
  have relationships := Json.Plain.dict Relationship.plain_toJson t.relationships
  exact .object (by simp [columns, attributes, relationships])

theorem Schema.plain_toJson (s : Schema) : Json.Plain 6 s.toJson := by
  have resourceTypes := Json.Plain.dict ResourceType.plain_toJson s.resourceTypes
  have enumTypes : Json.Plain 5 (enumTypesToJson s.enumTypes) :=
    .mono (.dict (.dict Json.Plain.int64) s.enumTypes) (Nat.le_add_left 2 3)
  exact .object (by simp [resourceTypes, enumTypes])

theorem QuerySettings.plain_toJson (s : QuerySettings) : Json.Plain 1 s.toJson :=
  .object (by simp)

theorem PoolSettings.plain_toJson (s : PoolSettings) : Json.Plain 1 s.toJson :=
  .object (by simp)

theorem Secret.plain_toJson : (s : Secret) → Json.Plain 1 s.toJson
  | .plain text => .string text
  | .inEnvironment _ => .object (by simp)

/-! ### Configurations -/

namespace Configuration

/-- **Configurations are read back** as documents. -/
theorem readsBack : Reading.ReadsBack ofReading? toJson := by
  rintro ⟨version, connectionUri, poolSettings, querySettings, schema⟩
  by_cases pool : poolSettings = .standard <;> by_cases query : querySettings = .standard <;>
    simp [toJson, ofReading?, pool, query, Json.readsBack_uint32 version,
      Secret.readsBack connectionUri, PoolSettings.readsBack poolSettings,
      QuerySettings.readsBack querySettings, Schema.readsBack schema]

/-- **The document of a configuration is plain.** -/
theorem plain_toJson (c : Configuration) : Json.Plain 7 c.toJson := by
  have uri : Json.Plain 6 c.connectionUri.toJson := c.connectionUri.plain_toJson.mono (by decide)
  have pool : Json.Plain 6 c.poolSettings.toJson := c.poolSettings.plain_toJson.mono (by decide)
  have query : Json.Plain 6 c.querySettings.toJson := c.querySettings.plain_toJson.mono (by decide)
  refine .object fun m mem => ?_
  simp only [List.mem_append, List.mem_cons, List.not_mem_nil, or_false] at mem
  rcases mem with (((rfl | rfl) | mem) | mem) | rfl
  · exact .uint32 _
  · exact uri
  · split at mem
    · cases mem
    · cases List.mem_singleton.mp mem
      exact pool
  · split at mem
    · cases mem
    · cases List.mem_singleton.mp mem
      exact query
  · exact c.schema.plain_toJson

/-- **A written configuration is parsed back.**  For each configuration of the current version the
file that is written for it is read as the same configuration; for any other version it is refused
for no other reason than the version. -/
theorem parse_write (c : Configuration) :
    parse (some c.write)
      = if c.version = currentVersion then .ok c else .error (.unsupportedVersion c.version) := by
  have spelled : Reading.ofText? c.write = some (.value c.toJson) := by
    rw [write, Json.ofText?_pretty, c.plain_toJson.reread (by decide)]
  have read : (Reading.ofText? c.write).bind ofReading? = some c := by
    rw [spelled]
    exact readsBack c
  rw [parse, read]

end Configuration

end ResourceQuery
