import ResourceQuery.Proofs.Change.Parameters
import ResourceQuery.Proofs.Compile.Correctness
import ResourceQuery.Proofs.Dict
import ResourceQuery.Proofs.Sql.Effects

/-!
# Applying changes to a database

The steps of a plan are applied in order.  Each has to affect the expected number of rows, and the
first that does not ends the run.  What a step does to the rows of its table is said here once for
each kind of step, in terms of the identifiers that rows hold.

## Main Definitions

- `Sql.Row.holds`, `Sql.Row.holdsOneOf`: a row holds an identifier in a column.
- `Sql.Engine.TellsApart`: a database does not take two identifiers for one.
- `MutationStep.applyAll`, `MutationStep.statesAfter`: where a run of steps ends, and the states
  that it goes through.
- `ChangeSet.takenAway`: what becomes of a row when rows are taken away.

## Main Statements

- `Sql.Engine.Distinct.countP_holdsOneOf`: how many rows hold one of several identifiers.
- `ChangeSet.effect_clearOrDelete`: taking rows away.
- `ChangeSet.write_assignments`: writing the columns of a resource.
-/

namespace ResourceQuery

open Sql (Engine Database)

variable {e : Engine}

/-! ### Identifiers in rows -/

namespace Sql.Row

/-- A row holds an identifier in a column. -/
def holds (row : Sql.Row e) (column : String) (id : ResourceId) : Bool :=
  e.same (row column) (e.parameter id.toValue)

/-- A row holds one of several identifiers in a column. -/
def holdsOneOf (row : Sql.Row e) (column : String) (ids : List ResourceId) : Bool :=
  ids.any (row.holds column)

theorem holds_congr {row other : Sql.Row e} {column : String} (id : ResourceId)
    (same : row column = other column) : row.holds column id = other.holds column id := by
  rw [holds, holds, same]

theorem holdsOneOf_congr {row other : Sql.Row e} {column : String} (ids : List ResourceId)
    (same : row column = other column) :
    row.holdsOneOf column ids = other.holdsOneOf column ids := by
  unfold holdsOneOf
  exact congrArg _ (funext fun id => holds_congr id same)

theorem holdsOneOf_iff {row : Sql.Row e} {column : String} {ids : List ResourceId} :
    row.holdsOneOf column ids = true ↔ ∃ id ∈ ids, row.holds column id = true :=
  List.any_eq_true

@[simp] theorem holdsOneOf_nil (row : Sql.Row e) (column : String) :
    row.holdsOneOf column [] = false := rfl

@[simp] theorem holdsOneOf_singleton (row : Sql.Row e) (column : String) (id : ResourceId) :
    row.holdsOneOf column [id] = row.holds column id := by
  simp [holdsOneOf]

end Sql.Row

namespace Sql.Engine

/-- **A database tells identifiers apart**: it takes two of them for equal if and only if they are
the same. -/
def TellsApart (e : Engine) : Prop :=
  ∀ a b : ResourceId, e.same (e.parameter a.toValue) (e.parameter b.toValue) = true ↔ a = b

/-- A row holds one identifier at most in a column. -/
theorem TellsApart.eq_of_holds (apart : e.TellsApart) {row : Sql.Row e} {column : String}
    {a b : ResourceId} (first : row.holds column a = true) (second : row.holds column b = true) :
    a = b :=
  (apart a b).mp (same_of_same first second)

/-- An identifier that was written is held. -/
theorem TellsApart.holds_of_eq (apart : e.TellsApart) {row : Sql.Row e} {column : String}
    {id : ResourceId} (written : row column = e.parameter id.toValue) :
    row.holds column id = true := by
  rw [Row.holds, written]
  exact (apart id id).mpr rfl

/-- Values that are compared as they are tell identifiers apart. -/
theorem tellsApart_outline : Outline.engine.TellsApart := by
  intro a b
  cases a <;> cases b <;> simp [same, compare, parameter, Outline.engine, ResourceId.toValue]

variable {rows : List (Sql.Row e)} {column : String}

/-- If no value occurs twice in a column, no more than one row holds an identifier there. -/
theorem Distinct.filter_holds (distinct : e.Distinct rows column) (id : ResourceId) :
    rows.filter (fun row => row.holds column id)
      = (rows.find? (fun row => row.holds column id)).toList := by
  simpa only [Row.holds, same_comm] using filter_same_eq distinct (e.parameter id.toValue)

theorem Distinct.countP_holds (distinct : e.Distinct rows column) (id : ResourceId) :
    rows.countP (fun row => row.holds column id)
      = if rows.any (fun row => row.holds column id) then 1 else 0 := by
  rw [List.countP_eq_length_filter, distinct.filter_holds id]
  cases found : rows.find? (fun row => row.holds column id) with
  | none =>
    have absent : rows.any (fun row => row.holds column id) = false := by
      simpa using List.find?_eq_none.mp found
    simp [absent]
  | some row =>
    have held := List.find?_some found
    have present : rows.any (fun row => row.holds column id) = true :=
      List.any_eq_true.mpr ⟨row, List.mem_of_find?_eq_some found, held⟩
    simp [present]

/-- Rows may be removed, and values may be cleared. -/
theorem Distinct.filterMap (distinct : e.Distinct rows column)
    {f : Sql.Row e → Option (Sql.Row e)}
    (kept : ∀ row other, f row = some other → other column = row column ∨ other column = none) :
    e.Distinct (rows.filterMap f) column := by
  refine List.Pairwise.filterMap f (fun row other different row' found other' found' => ?_) distinct
  rcases kept _ _ found with same | cleared
  · rcases kept _ _ found' with same' | cleared'
    · rw [same, same', different]
    · rw [cleared', same_comm, same_none_left]
  · rw [cleared, same_none_left]

/-- Rows with one of two properties are counted one by one if no row has both. -/
theorem countP_or_of_not_both {α : Type} {p q : α → Bool} {items : List α}
    (apart : ∀ a ∈ items, p a = true → q a = false) :
    items.countP (fun a => p a || q a) = items.countP p + items.countP q := by
  induction items with
  | nil => rfl
  | cons a rest ih =>
    rw [List.forall_mem_cons] at apart
    rw [List.countP_cons, List.countP_cons, List.countP_cons, ih apart.2]
    cases hp : p a with
    | false => simp [Nat.add_assoc]
    | true =>
      simp only [apart.1 hp, Bool.or_false, if_true]
      simp
      omega

/-- **How many rows hold one of several identifiers**: as many as there are identifiers that occur,
if no value occurs twice. -/
theorem Distinct.countP_holdsOneOf (apart : e.TellsApart) (distinct : e.Distinct rows column)
    {ids : List ResourceId} (nodup : ids.Nodup) :
    rows.countP (fun row => row.holdsOneOf column ids)
      = ids.countP (fun id => rows.any (fun row => row.holds column id)) := by
  induction ids with
  | nil => simp
  | cons id rest ih =>
    rw [List.nodup_cons] at nodup
    have others : ∀ row ∈ rows, row.holds column id = true →
        row.holdsOneOf column rest = false := by
      intro row _ held
      rw [Bool.eq_false_iff]
      intro again
      obtain ⟨other, mem, held'⟩ := Row.holdsOneOf_iff.mp again
      exact nodup.1 (apart.eq_of_holds held held' ▸ mem)
    have split := countP_or_of_not_both others
    rw [List.countP_cons, ← ih nodup.2, ← distinct.countP_holds id, Nat.add_comm, ← split]
    rfl

/-- As many rows hold one of several identifiers as there are identifiers, if and only if each of
them occurs. -/
theorem Distinct.countP_holdsOneOf_eq_length (apart : e.TellsApart)
    (distinct : e.Distinct rows column) {ids : List ResourceId} (nodup : ids.Nodup) :
    rows.countP (fun row => row.holdsOneOf column ids) = ids.length
      ↔ ∀ id ∈ ids, ∃ row ∈ rows, row.holds column id = true := by
  rw [distinct.countP_holdsOneOf apart nodup, List.countP_eq_length]
  simp only [List.any_eq_true]

end Sql.Engine

/-! ### Runs -/

namespace MutationStep

variable (defaults : Sql.Row e)

/-- **Apply a step** to a database.  There is no result if it affects another number of rows than
expected. -/
def applyTo (step : MutationStep) (db : Database e) : Option (Database e) :=
  let result := step.statement.effect defaults db
  if step.expectation.isMetBy result.2 then some result.1 else none

/-- **Apply steps in order**, if each affects the expected number of rows. -/
def applyAll : List MutationStep → Database e → Option (Database e)
  | [], db => some db
  | step :: rest, db => (step.applyTo defaults db).bind (applyAll rest)

/-- **The states that a run goes through**: one after each statement, up to the first that affects
another number of rows than expected. -/
def statesAfter : List MutationStep → Database e → List (Database e)
  | [], _ => []
  | step :: rest, db =>
    (step.statement.effect defaults db).1
      :: ((step.applyTo defaults db).map (statesAfter rest)).getD []

variable {defaults}

theorem applyAll_append (steps more : List MutationStep) (db : Database e) :
    applyAll defaults (steps ++ more) db
      = (applyAll defaults steps db).bind (applyAll defaults more) := by
  induction steps generalizing db with
  | nil => rfl
  | cons step rest ih =>
    rw [List.cons_append, applyAll, applyAll, Option.bind_assoc]
    exact congrArg _ (funext ih)

theorem applyAll_singleton (step : MutationStep) (db : Database e) :
    applyAll defaults [step] db = step.applyTo defaults db :=
  Option.bind_fun_some _

theorem applyTo_eq_some {step : MutationStep} {db final : Database e} :
    step.applyTo defaults db = some final
      ↔ step.expectation.isMetBy (step.statement.effect defaults db).2 = true
        ∧ final = (step.statement.effect defaults db).1 := by
  unfold applyTo
  dsimp only
  split
  · rename_i met
    exact ⟨fun same => ⟨met, (Option.some.inj same).symm⟩, fun same => same.2 ▸ rfl⟩
  · rename_i missed
    exact ⟨nofun, fun same => absurd same.1 missed⟩

theorem mem_statesAfter_cons {step : MutationStep} {rest : List MutationStep}
    {db state : Database e} :
    state ∈ statesAfter defaults (step :: rest) db
      ↔ state = (step.statement.effect defaults db).1
        ∨ ∃ next, step.applyTo defaults db = some next
          ∧ state ∈ statesAfter defaults rest next := by
  rw [statesAfter, List.mem_cons]
  cases step.applyTo defaults db <;> simp

end MutationStep

/-! ### Statements of plans -/

namespace ChangeSet

variable {defaults : Sql.Row e} {db : Database e}

/-- The rows that a condition on identifiers selects. -/
@[simp] theorem isTrue_isOneOf (row : Sql.Row e) (names : Names) (column : String)
    (ids : List ResourceId) :
    ((isOneOf names column ids).truthIn db row).isTrue = row.holdsOneOf column ids := by
  rw [isOneOf, Sql.Condition.isTrue_truthIn_equalsAny, idParameters_eq]
  have values := Names.map_value_given names.parameters (ids.map ResourceId.toValue)
  have tested : ∀ given : List Sql.Parameter,
      given.any (fun p => e.same ((plainColumn column).valueIn row) (e.parameter p.value))
        = (given.map Sql.Parameter.value).any (fun v => e.same (row column) (e.parameter v)) := by
    intro given
    rw [List.any_map]
    rfl
  rw [tested, values, List.any_map]
  rfl

/-- **What becomes of a row when rows are taken away** by the identifiers that they hold in a
column: the key is cleared, or else the row is deleted. -/
def takenAway (chosenBy : String) (ids : List ResourceId) (column : String) (nullable : Bool)
    (row : Sql.Row e) : Option (Sql.Row e) :=
  if row.holdsOneOf chosenBy ids then
    if nullable then some (Function.update row column none) else none
  else some row

section

variable {chosenBy column : String} {ids : List ResourceId} {nullable : Bool}
variable {row other : Sql.Row e}

theorem takenAway_eq_some :
    takenAway chosenBy ids column nullable row = some other
      ↔ (row.holdsOneOf chosenBy ids = true ∧ nullable = true
          ∧ other = Function.update row column none)
        ∨ (row.holdsOneOf chosenBy ids = false ∧ other = row) := by
  unfold takenAway
  cases row.holdsOneOf chosenBy ids <;> cases nullable <;> simp [eq_comm]

/-- Taking rows away changes no column but that of the key. -/
theorem eq_of_takenAway {c : String}
    (kept : takenAway chosenBy ids column nullable row = some other) (separate : column ≠ c) :
    other c = row c := by
  rcases takenAway_eq_some.mp kept with ⟨-, -, rfl⟩ | ⟨-, rfl⟩
  · exact Function.update_of_ne (Ne.symm separate) none row
  · rfl

end

/-- **Taking rows away** by the identifiers that they hold in a column. -/
theorem effect_clearOrDelete (table column chosenBy : String) (nullable : Bool) (names : Names)
    (ids : List ResourceId) :
    (clearOrDelete table column nullable (isOneOf names chosenBy ids)).effect defaults db
      = (Function.update db table ((db table).filterMap (takenAway chosenBy ids column nullable)),
        (db table).countP (fun row => row.holdsOneOf chosenBy ids)) := by
  cases nullable with
  | true =>
    have rows : takenAway chosenBy ids column true = some ∘ fun row : Sql.Row e =>
        if row.holdsOneOf chosenBy ids then Function.update row column none else row := by
      funext row
      by_cases held : row.holdsOneOf chosenBy ids <;> simp [held, takenAway]
    rw [rows, List.filterMap_eq_map]
    simp [clearOrDelete, Sql.Statement.effect, Sql.Row.write_singleton, Sql.Operand.valueIn,
      Sql.Operand.value]
  | false =>
    have rows : takenAway chosenBy ids column false
        = Option.guard (fun row : Sql.Row e => !row.holdsOneOf chosenBy ids) := by
      funext row
      by_cases held : row.holdsOneOf chosenBy ids <;> simp [held, takenAway, Option.guard]
    rw [rows, List.filterMap_eq_filter]
    simp [clearOrDelete, Sql.Statement.effect]

/-- **Writing the columns of a resource**: each changed column gets its value. -/
theorem write_assignments (row : Sql.Row e) (names : Names) (columns : List (String × Sql.Value))
    (column : String) :
    row.write db (assignments names columns).1 column
      = match columns.lookup column with
        | some value => e.parameter value
        | none => row column := by
  induction columns generalizing names with
  | nil => rfl
  | cons entry rest ih =>
    obtain ⟨other, value⟩ := entry
    rw [Dict.lookup_cons_eq_ite]
    by_cases null : value = .null
    · subst null
      have first : (assignments names ((other, .null) :: rest)).1
          = ⟨other, .null⟩ :: (assignments names rest).1 := rfl
      rw [first, Sql.Row.write_cons, ih names]
      split <;> rfl
    · rw [assignments_cons names other rest null, Sql.Row.write_cons, ih]
      split <;> rfl

end ChangeSet

end ResourceQuery
