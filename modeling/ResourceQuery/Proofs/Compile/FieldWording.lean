import ResourceQuery.Proofs.Schema.Tables
import ResourceQuery.Compile.Fields
import ResourceQuery.Schema.Todo

/-!
# How a selection is worded

A selection lists attributes, and the columns to select follow from which attributes are listed,
not from their order or from how often they are repeated.  There is one exception: a calculated
attribute ends the reading of the list, so an unknown attribute is refused before it and overlooked
behind it.

## Main Definitions

- `ResourceType.isUnknown`, `ResourceType.isCalculated`: the attributes that end the reading.
- `Compile.columnsFor`: the columns for a list of attributes that is accepted.

## Main Statements

- `Compile.wantedColumns_eq`: the first attribute that is unknown or calculated decides.
- `Compile.selectedColumns_eq_error_iff`: an unknown attribute is refused if no calculated one
  stands before it.
- `Compile.selectedColumns_reworded_iff`: a list can be reworded freely if and only if it does not
  name both a calculated and an unknown attribute.
-/

namespace ResourceQuery

/-! ### Attributes by name -/

namespace ResourceType

/-- Is this no field of a resource type. -/
def isUnknown (info : ResourceType) (name : String) : Bool :=
  name ≠ Schema.idField && (info.attributes.get? name).isNone

/-- Is this an attribute that no column stores. -/
def isCalculated (info : ResourceType) (name : String) : Bool :=
  name ≠ Schema.idField && (info.attributes.get? name).any (fun a => a.column?.isNone)

/-- The column that stores an attribute. -/
def storingColumn? (info : ResourceType) (name : String) : Option String :=
  if name = Schema.idField then none else (info.attributes.get? name).bind Attribute.column?

theorem isUnknown_of_isCalculated (info : ResourceType) {name : String}
    (calculated : info.isCalculated name) : info.isUnknown name = false := by
  rw [isUnknown]
  rw [isCalculated, Bool.and_eq_true] at calculated
  cases known : info.attributes.get? name with
  | none => simp [known] at calculated
  | some found => simp

end ResourceType

namespace Compile

open Sql (Table TableAlias)

variable {schema : Schema} {info : ResourceType} {table : Table}
  {relationships : List (String × Layer)}

/-! ### Reading the list -/

/-- **The first attribute that is unknown or calculated decides**; without one, the columns of all
attributes are wanted. -/
theorem wantedColumns_eq (resourceType : String) (info : ResourceType) (attributes : List String) :
    wantedColumns resourceType info attributes
      = match attributes.find? (fun name => info.isUnknown name || info.isCalculated name) with
        | some name =>
          if info.isUnknown name then .error (.attributeNotFound resourceType name) else .ok none
        | none => .ok (some (attributes.filterMap info.storingColumn?)) := by
  induction attributes with
  | nil => rfl
  | cons name rest ih =>
    rw [wantedColumns]
    by_cases id : name = Schema.idField
    · simp [id, ih, ResourceType.isUnknown, ResourceType.isCalculated, ResourceType.storingColumn?]
    · cases known : info.attributes.get? name with
      | none => simp [id, known, ResourceType.isUnknown]
      | some found =>
        cases stored : found.column? with
        | none => simp [id, known, stored, ResourceType.isUnknown, ResourceType.isCalculated]
        | some column =>
          have plain : (info.isUnknown name || info.isCalculated name) = false := by
            simp [ResourceType.isUnknown, ResourceType.isCalculated, known, stored]
          have storing : info.storingColumn? name = some column := by
            simp [ResourceType.storingColumn?, id, known, stored]
          rw [if_neg id, List.find?_cons_of_neg (by simp [plain]), List.filterMap_cons_some storing]
          dsimp only
          rw [stored, ih]
          cases rest.find? (fun name => info.isUnknown name || info.isCalculated name) with
          | none => rfl
          | some first =>
            dsimp only
            split <;> rfl

/-- **The attribute that is refused**: the first one that is unknown or calculated, if it is
unknown. -/
def refused? (info : ResourceType) (attributes : List String) : Option String :=
  (attributes.find? (fun name => info.isUnknown name || info.isCalculated name)).filter
    info.isUnknown

/-- **The columns for a list of attributes** that is accepted: all that store values if one of the
attributes is calculated or only relationships are selected, and otherwise the identifier and those
that store one of the attributes. -/
def columnsFor (info : ResourceType) (table : Table) (attributes : List String)
    (relationships : List (String × Layer)) : List String :=
  if attributes.any info.isCalculated || (attributes.isEmpty && !relationships.isEmpty) then
    table.scalars
  else table.scalars.filter (fun column =>
    column = info.idColumn || column ∈ attributes.filterMap info.storingColumn?)

/-- **What is selected**, in terms of the attributes that are listed and the one that is
refused. -/
theorem selectedColumns_eq (described : schema.resourceType table.resourceType = .ok info)
    (attributes : List String) (relationships : List (String × Layer)) :
    selectedColumns schema table (some ⟨attributes, relationships⟩)
      = match refused? info attributes with
        | some name => .error (.attributeNotFound table.resourceType name)
        | none => .ok (columnsFor info table attributes relationships) := by
  by_cases whole : (attributes.isEmpty && !relationships.isEmpty) = true
  · obtain rfl : attributes = [] := List.isEmpty_iff.mp (Bool.and_eq_true_iff.mp whole).1
    simp only [selectedColumns, columnsFor, whole, if_true, Bool.or_true]
    rfl
  · have read : selectedColumns schema table (some ⟨attributes, relationships⟩)
        = (wantedColumns table.resourceType info attributes).map (fun wanted? =>
          wanted?.elim table.scalars (fun wanted =>
            table.scalars.filter (fun column => column = info.idColumn || column ∈ wanted))) := by
      simp only [selectedColumns, whole, described, CompileError.ofLookup, bind, Except.bind]
      cases wantedColumns table.resourceType info attributes with
      | error e => rfl
      | ok wanted? => cases wanted? <;> rfl
    rw [read, wantedColumns_eq, refused?]
    cases found : attributes.find? (fun name => info.isUnknown name || info.isCalculated name) with
    | none =>
      have plain : attributes.any info.isCalculated = false := by
        rw [List.any_eq_false]
        intro name mem calculated
        have := List.find?_eq_none.mp found name mem
        simp [calculated] at this
      simp [columnsFor, whole, plain, Except.map]
    | some name =>
      have mem := List.mem_of_find?_eq_some found
      have ends := List.find?_some found
      cases unknown : info.isUnknown name with
      | true => simp [unknown, Except.map, Option.filter]
      | false =>
        have calculated : attributes.any info.isCalculated = true :=
          List.any_eq_true.mpr ⟨name, mem, by simpa [unknown] using ends⟩
        simp [unknown, columnsFor, calculated, Except.map, Option.filter]

/-- Which columns these are does not depend on how the list is worded. -/
theorem columnsFor_congr {attributes reworded : List String}
    (same : ∀ name, name ∈ reworded ↔ name ∈ attributes) :
    columnsFor info table reworded relationships
      = columnsFor info table attributes relationships := by
  have calculated : reworded.any info.isCalculated = attributes.any info.isCalculated := by
    rw [Bool.eq_iff_iff, List.any_eq_true, List.any_eq_true]
    exact exists_congr fun name => and_congr_left fun _ => same name
  have empty : reworded.isEmpty = attributes.isEmpty := by
    rw [Bool.eq_iff_iff, List.isEmpty_iff, List.isEmpty_iff, List.eq_nil_iff_forall_not_mem,
      List.eq_nil_iff_forall_not_mem]
    exact forall_congr' fun name => not_congr (same name)
  have storing : ∀ column, column ∈ reworded.filterMap info.storingColumn?
      ↔ column ∈ attributes.filterMap info.storingColumn? := by
    intro column
    rw [List.mem_filterMap, List.mem_filterMap]
    exact exists_congr fun name => and_congr_left fun _ => same name
  simp only [columnsFor, calculated, empty, storing]

/-! ### Refused attributes -/

/-- **An unknown attribute is refused** if neither an unknown nor a calculated one stands before
it. -/
theorem refused?_eq_some_iff {attributes : List String} {name : String} :
    refused? info attributes = some name
      ↔ info.isUnknown name ∧ ∃ front rest, attributes = front ++ name :: rest
        ∧ ∀ other ∈ front, ¬ info.isUnknown other ∧ ¬ info.isCalculated other := by
  rw [refused?, Option.filter_eq_some_iff, List.find?_eq_some_iff_append]
  constructor
  · rintro ⟨⟨-, front, rest, split, before⟩, unknown⟩
    refine ⟨unknown, front, rest, split, fun other mem => ?_⟩
    simpa using before other mem
  · rintro ⟨unknown, front, rest, split, before⟩
    refine ⟨⟨by simp [unknown], front, rest, split, fun other mem => ?_⟩, unknown⟩
    simpa using before other mem

theorem selectedColumns_eq_error_iff
    (described : schema.resourceType table.resourceType = .ok info) {attributes : List String}
    {e : CompileError} :
    selectedColumns schema table (some ⟨attributes, relationships⟩) = .error e
      ↔ ∃ name front rest, e = .attributeNotFound table.resourceType name ∧ info.isUnknown name
        ∧ attributes = front ++ name :: rest
        ∧ ∀ other ∈ front, ¬ info.isUnknown other ∧ ¬ info.isCalculated other := by
  have refusal : selectedColumns schema table (some ⟨attributes, relationships⟩) = .error e
      ↔ ∃ name, e = .attributeNotFound table.resourceType name
        ∧ refused? info attributes = some name := by
    rw [selectedColumns_eq described]
    cases refused? info attributes with
    | none => simp
    | some name => simp [eq_comm]
  rw [refusal]
  simp only [refused?_eq_some_iff, exists_and_left]

/-- A list without unknown attributes is accepted. -/
theorem refused?_eq_none {attributes : List String}
    (known : ∀ name ∈ attributes, ¬ info.isUnknown name) : refused? info attributes = none := by
  rw [refused?, Option.filter_eq_none_iff]
  intro name found
  exact known name (List.mem_of_find?_eq_some found)

/-- A list without calculated attributes is refused if one of them is unknown. -/
theorem isSome_refused?_iff {attributes : List String}
    (stored : ∀ name ∈ attributes, ¬ info.isCalculated name) :
    (refused? info attributes).isSome ↔ ∃ name ∈ attributes, info.isUnknown name := by
  constructor
  · intro refused
    obtain ⟨name, refused⟩ := Option.isSome_iff_exists.mp refused
    obtain ⟨unknown, front, rest, split, -⟩ := refused?_eq_some_iff.mp refused
    exact ⟨name, by simp [split], unknown⟩
  · rintro ⟨name, mem, unknown⟩
    cases found : attributes.find? (fun name => info.isUnknown name || info.isCalculated name) with
    | none =>
      have plain := List.find?_eq_none.mp found name mem
      simp [unknown] at plain
    | some first =>
      have ends := List.find?_some found
      have plain := stored first (List.mem_of_find?_eq_some found)
      have unknown : info.isUnknown first = true := by simpa [plain] using ends
      rw [refused?, found, Option.filter_some_pos unknown]
      rfl

/-! ### Rewording -/

/-- **A list names both an unknown and a calculated attribute.** -/
def IsMixed (info : ResourceType) (attributes : List String) : Prop :=
  (∃ name ∈ attributes, info.isUnknown name) ∧ ∃ name ∈ attributes, info.isCalculated name

instance (info : ResourceType) (attributes : List String) : Decidable (IsMixed info attributes) :=
  inferInstanceAs (Decidable (_ ∧ _))

/-- **The columns that are selected for a list of attributes**, or none if the list is refused. -/
def outcome (schema : Schema) (table : Table) (relationships : List (String × Layer))
    (attributes : List String) : Option (List String) :=
  (selectedColumns schema table (some ⟨attributes, relationships⟩)).toOption

theorem outcome_eq (described : schema.resourceType table.resourceType = .ok info)
    (attributes : List String) :
    outcome schema table relationships attributes
      = if (refused? info attributes).isSome then none
        else some (columnsFor info table attributes relationships) := by
  rw [outcome, selectedColumns_eq described]
  cases refused? info attributes <;> rfl

/-- A list that does not name both can be reworded. -/
theorem outcome_congr (described : schema.resourceType table.resourceType = .ok info)
    {attributes reworded : List String} (same : ∀ name, name ∈ reworded ↔ name ∈ attributes)
    (plain : ¬ IsMixed info attributes) :
    outcome schema table relationships reworded
      = outcome schema table relationships attributes := by
  have refusal : (refused? info reworded).isSome = (refused? info attributes).isSome := by
    by_cases unknown : ∃ name ∈ attributes, info.isUnknown name
    · have stored : ∀ name ∈ attributes, ¬ info.isCalculated name :=
        fun name mem calculated => plain ⟨unknown, name, mem, calculated⟩
      rw [Bool.eq_iff_iff, isSome_refused?_iff stored,
        isSome_refused?_iff fun name mem => stored name ((same name).mp mem)]
      exact exists_congr fun name => and_congr_left fun _ => same name
    · have known : ∀ name ∈ attributes, ¬ info.isUnknown name :=
        fun name mem found => unknown ⟨name, mem, found⟩
      rw [refused?_eq_none known, refused?_eq_none fun name mem => known name ((same name).mp mem)]
  rw [outcome_eq described, outcome_eq described, refusal, columnsFor_congr same]

/-- A list that names both is refused in one order and accepted in another. -/
theorem not_isMixed_of_perm (described : schema.resourceType table.resourceType = .ok info)
    {attributes : List String}
    (free : ∀ reworded, reworded.Perm attributes →
      outcome schema table relationships reworded
        = outcome schema table relationships attributes) : ¬ IsMixed info attributes := by
  rintro ⟨⟨unknown, mem, hunknown⟩, calculated, mem', hcalculated⟩
  have known := info.isUnknown_of_isCalculated hcalculated
  have refuses := free _ (List.perm_cons_erase mem).symm
  have accepts := free _ (List.perm_cons_erase mem').symm
  -- With the unknown attribute first the list is refused, with the calculated one it is not.
  have refused : refused? info (unknown :: attributes.erase unknown) = some unknown := by
    simp [refused?, hunknown, Option.filter]
  have accepted : refused? info (calculated :: attributes.erase calculated) = none := by
    simp [refused?, known, hcalculated, Option.filter]
  rw [outcome_eq described, refused] at refuses
  rw [outcome_eq described, accepted] at accepts
  cases refuses.trans accepts.symm

/-- **A list of attributes can be reworded freely if and only if it does not name both an unknown
and a calculated attribute.**  Then any order and any repetition of the same attributes selects the
same columns, or is refused alike; otherwise already some other order has another outcome.  Wordings
that are accepted always select the same columns, and a list is refused exactly because of an
unknown attribute before which neither an unknown nor a calculated one stands. -/
theorem selectedColumns_reworded_iff {resourceType : String} {a : TableAlias}
    (described : schema.resourceType resourceType = .ok info)
    (made : schema.table resourceType a = .ok table) (relationships : List (String × Layer))
    (attributes : List String) :
    ((∀ reworded, (∀ name, name ∈ reworded ↔ name ∈ attributes) →
        outcome schema table relationships reworded
          = outcome schema table relationships attributes) ↔ ¬ IsMixed info attributes)
      ∧ ((∀ reworded, reworded.Perm attributes →
        outcome schema table relationships reworded
          = outcome schema table relationships attributes) ↔ ¬ IsMixed info attributes)
      ∧ (∀ reworded, (∀ name, name ∈ reworded ↔ name ∈ attributes) → ∀ columns columns',
        outcome schema table relationships reworded = some columns →
        outcome schema table relationships attributes = some columns' → columns = columns')
      ∧ ∀ e, selectedColumns schema table (some ⟨attributes, relationships⟩) = .error e
        ↔ ∃ name front rest, e = .attributeNotFound resourceType name ∧ info.isUnknown name
          ∧ attributes = front ++ name :: rest
          ∧ ∀ other ∈ front, ¬ info.isUnknown other ∧ ¬ info.isCalculated other := by
  obtain ⟨rfl, -, -⟩ := Schema.stores_of_table made
  refine ⟨⟨fun free => ?_, fun plain reworded same => outcome_congr described same plain⟩,
    ⟨not_isMixed_of_perm described, fun plain reworded perm => ?_⟩, ?_, fun e => ?_⟩
  · exact not_isMixed_of_perm described fun reworded perm => free reworded fun _ => perm.mem_iff
  · exact outcome_congr described (fun _ => perm.mem_iff) plain
  · intro reworded same columns columns' first second
    rw [outcome_eq described] at first second
    split at first
    · cases first
    · split at second
      · cases second
      · cases first
        cases second
        exact columnsFor_congr same
  · exact selectedColumns_eq_error_iff described

/-- The table of people, whose display name is calculated. -/
def peopleTable : Table :=
  ⟨"people", "People", ⟨1⟩, ["Id", "FirstName", "LastName"], ["AccountId"]⟩

/-- Names of people can be asked for in any words, but not together with their age. -/
theorem selectedColumns_reworded_people :
    Schema.todo.resourceType "people" = .ok Schema.Todo.people
      ∧ Schema.todo.table "people" ⟨1⟩ = .ok peopleTable
      ∧ (∀ reworded, (∀ name, name ∈ reworded ↔ name ∈ ["lastName", "id", "displayName"]) →
        outcome .todo peopleTable [] reworded = some ["Id", "FirstName", "LastName"])
      ∧ ¬ ∀ reworded, reworded.Perm ["lastName", "age", "displayName"] →
        outcome .todo peopleTable [] reworded
          = outcome .todo peopleTable [] ["lastName", "age", "displayName"] := by
  have described : Schema.todo.resourceType "people" = .ok Schema.Todo.people := rfl
  have made : Schema.todo.table "people" ⟨1⟩ = .ok peopleTable := rfl
  have names := selectedColumns_reworded_iff described made [] ["lastName", "id", "displayName"]
  have ages := selectedColumns_reworded_iff described made [] ["lastName", "age", "displayName"]
  refine ⟨described, made, fun reworded same => ?_, fun free => ?_⟩
  · exact names.1.mpr (by decide +kernel) reworded same
  · exact ages.2.1.mp free (by decide +kernel)

/-- **An unknown attribute is overlooked behind a calculated one**: in one order a selection is
accepted, in the other it is refused. -/
theorem age_overlooked :
    ["displayName", "age"].Perm ["age", "displayName"]
      ∧ Schema.todo.table "people" ⟨1⟩ = .ok peopleTable
      ∧ selectedColumns .todo peopleTable (some ⟨["displayName", "age"], []⟩)
        = .ok ["Id", "FirstName", "LastName"]
      ∧ selectedColumns .todo peopleTable (some ⟨["age", "displayName"], []⟩)
        = .error (.attributeNotFound "people" "age") := by
  refine ⟨List.Perm.swap _ _ _, ?_, ?_, ?_⟩
  · rfl
  · rfl
  · rfl

end Compile

end ResourceQuery
