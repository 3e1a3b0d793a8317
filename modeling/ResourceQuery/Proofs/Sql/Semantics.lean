import ResourceQuery.Sql.Condition
import ResourceQuery.Sql.Source

/-!
# What statements mean

A query is evaluated over a database: its sources are joined row by row, the condition is tested in
three-valued logic, and the rows that meet it are counted, or ordered, cut and projected.

## Main Definitions

- `Sql.Truth`: truth values, of which one is unknown.
- `Sql.Engine`: how a database compares, matches and orders values.
- `Sql.Database`: the rows of each table.
- `Sql.Binding`: the rows that a query looks at together, by alias.
- `Sql.Select.answers`: the answers of a query.
- `Sql.Condition.truth`: the truth of a condition for a binding.

## Main Statements

- `Sql.Condition.truth_combine`: merging terms of the same operator does not change the truth.
- `Sql.Entry.bindings_concat`: the last source is joined to what the others give.

## Design Notes

Values, their comparison and their matching are parameters; of equality no more is asked than that
it is symmetric and transitive.  A query inside a condition sees the binding it is evaluated for, a
derived table sees what the query around it sees from outside.
-/

namespace ResourceQuery.Sql

/-! ### Three-valued logic -/

/-- The truth of a condition, which may be unknown because of a null. -/
inductive Truth where
  | fails
  | unknown
  | holds
deriving DecidableEq

namespace Truth

/-- A condition that is never unknown. -/
def ofBool : Bool → Truth
  | false => fails
  | true => holds

/-- Does a condition hold. -/
def isTrue : Truth → Bool
  | holds => true
  | _ => false

/-- The opposite. -/
def not : Truth → Truth
  | fails => holds
  | unknown => unknown
  | holds => fails

/-- Both hold. -/
def and : Truth → Truth → Truth
  | holds, t => t
  | fails, _ => fails
  | unknown, fails => fails
  | unknown, _ => unknown

/-- One of the two holds. -/
def or : Truth → Truth → Truth
  | fails, t => t
  | holds, _ => holds
  | unknown, holds => holds
  | unknown, _ => unknown

/-- All of several hold. -/
def all : List Truth → Truth :=
  List.foldr and holds

/-- One of several holds. -/
def any : List Truth → Truth :=
  List.foldr or fails

@[simp] theorem and_holds (t : Truth) : t.and holds = t := by cases t <;> rfl

@[simp] theorem holds_and (t : Truth) : holds.and t = t := rfl

@[simp] theorem or_fails (t : Truth) : t.or fails = t := by cases t <;> rfl

@[simp] theorem fails_or (t : Truth) : fails.or t = t := rfl

@[simp] theorem isTrue_ofBool (b : Bool) : (ofBool b).isTrue = b := by cases b <;> rfl

theorem and_assoc (s t u : Truth) : (s.and t).and u = s.and (t.and u) := by
  cases s <;> cases t <;> cases u <;> rfl

theorem or_assoc (s t u : Truth) : (s.or t).or u = s.or (t.or u) := by
  cases s <;> cases t <;> cases u <;> rfl

theorem or_comm (s t : Truth) : s.or t = t.or s := by
  cases s <;> cases t <;> rfl

theorem or_self (t : Truth) : t.or t = t := by
  cases t <;> rfl

theorem isTrue_and (s t : Truth) : (s.and t).isTrue = (s.isTrue && t.isTrue) := by
  cases s <;> cases t <;> rfl

theorem isTrue_or (s t : Truth) : (s.or t).isTrue = (s.isTrue || t.isTrue) := by
  cases s <;> cases t <;> rfl

theorem isTrue_any (ts : List Truth) : (any ts).isTrue = ts.any isTrue := by
  induction ts with
  | nil => rfl
  | cons t rest ih => rw [List.any_cons, ← ih, ← isTrue_or]; rfl

end Truth

/-- The truth of combined terms. -/
def LogicalOp.truth : LogicalOp → List Truth → Truth
  | .and => Truth.all
  | .or => Truth.any

namespace LogicalOp

@[simp] theorem truth_singleton (op : LogicalOp) (t : Truth) : op.truth [t] = t := by
  cases op with
  | and => exact Truth.and_holds t
  | or => exact Truth.or_fails t

theorem truth_append (op : LogicalOp) (ss ts : List Truth) :
    op.truth (ss ++ ts) = op.truth [op.truth ss, op.truth ts] := by
  cases op with
  | and =>
    induction ss with
    | nil => simp [truth, Truth.all]
    | cons s rest ih => simpa [truth, Truth.all, Truth.and_assoc] using congrArg s.and ih
  | or =>
    induction ss with
    | nil => simp [truth, Truth.any]
    | cons s rest ih => simpa [truth, Truth.any, Truth.or_assoc] using congrArg s.or ih

theorem truth_cons (op : LogicalOp) (t : Truth) (ts : List Truth) :
    op.truth (t :: ts) = op.truth [t, op.truth ts] := by
  rw [← List.singleton_append, truth_append, truth_singleton]

/-- **Terms may be grouped.** -/
theorem truth_flatMap {α : Type} (op : LogicalOp) (parts : α → List Truth) (terms : List α) :
    op.truth (terms.flatMap parts) = op.truth (terms.map (fun t => op.truth (parts t))) := by
  induction terms with
  | nil => rfl
  | cons t rest ih =>
    rw [List.flatMap_cons, truth_append, ih, List.map_cons]
    exact (truth_cons op _ _).symm

end LogicalOp

/-! ### Databases -/

/-- **How a database treats values.** -/
structure Engine where
  /-- The values that can be stored, except for null. -/
  Datum : Type
  /-- The value of a parameter that is not null. -/
  ofConstant : Value → Datum
  /-- A number of rows. -/
  ofNumber : Nat → Datum
  compares : ComparisonOp → Datum → Datum → Bool
  /-- Does a text occur in a value at a place. -/
  matchesText : Datum → String → MatchKind → Bool
  /-- Does a value, or null, come no later than another in ascending order. -/
  sorts : Option Datum → Option Datum → Bool
  equal_symm : ∀ v w, compares .equal v w = true → compares .equal w v = true
  equal_trans : ∀ u v w, compares .equal u v = true → compares .equal v w = true →
    compares .equal u w = true

/-- A row: the value of each column, null where there is none. -/
abbrev Row (e : Engine) := String → Option e.Datum

/-- The rows of each table. -/
abbrev Database (e : Engine) := String → List (Row e)

/-- The rows that a query looks at together, by the alias of the source they come from. -/
abbrev Binding (e : Engine) := TableAlias → Row e

/-- A row of a result: values with the names of their columns. -/
abbrev Answer (e : Engine) := List (String × Option e.Datum)

/-- The row that stands for a missing counterpart. -/
def Row.null {e : Engine} : Row e := fun _ => none

/-- Nothing is looked at. -/
def Binding.empty {e : Engine} : Binding e := fun _ => Row.null

/-- Look at one more row. -/
def Binding.set {e : Engine} (b : Binding e) (alias? : Option TableAlias) (row : Row e) :
    Binding e :=
  fun a => if alias? = some a then row else b a

@[simp] theorem Binding.set_self {e : Engine} (b : Binding e) (a : TableAlias) (row : Row e) :
    b.set (some a) row a = row := by
  simp [Binding.set]

theorem Binding.set_of_ne {e : Engine} (b : Binding e) {a c : TableAlias} (row : Row e)
    (ne : a ≠ c) : b.set (some a) row c = b c := by
  simp [Binding.set, ne]

/-- The row that an answer of a derived table is. -/
def Answer.row {e : Engine} (answer : Answer e) : Row e :=
  fun name => ((answer.find? (fun cell => cell.1 = name)).map Prod.snd).join

/-- The value of a column in a binding. -/
def Column.value {e : Engine} (c : Column) (b : Binding e) : Option e.Datum :=
  match c.alias? with
  | some a => b a c.name
  | none => none

namespace Engine

variable (e : Engine)

/-- The value of a parameter. -/
def parameter (v : Value) : Option e.Datum :=
  if v = .null then none else some (e.ofConstant v)

/-- Compare two values.  With a null the outcome is unknown. -/
def compare (op : ComparisonOp) : Option e.Datum → Option e.Datum → Truth
  | some v, some w => .ofBool (e.compares op v w)
  | _, _ => .unknown

/-- Compare a value with the word for null, which tests for it. -/
def compareNull (op : ComparisonOp) (v : Option e.Datum) : Truth :=
  match op with
  | .equal => .ofBool v.isNone
  | .notEqual => .ofBool v.isSome
  | _ => .unknown

/-- Does a text occur in a value at a place. -/
def like (v : Option e.Datum) (text : String) (kind : MatchKind) : Truth :=
  match v with
  | some v => .ofBool (e.matchesText v text kind)
  | none => .unknown

/-- Are two values equal, and not null. -/
def same (v w : Option e.Datum) : Bool :=
  (e.compare .equal v w).isTrue

/-- Does a row with some keys come no later than a row with others.  Each key says if it is
descending. -/
def arranges : List (Option e.Datum × Bool) → List (Option e.Datum × Bool) → Bool
  | (v, descending) :: vs, (w, _) :: ws =>
    if e.sorts v w && e.sorts w v then arranges vs ws
    else if descending then e.sorts w v
    else e.sorts v w
  | _, _ => true

variable {e}

@[simp] theorem same_none_left (w : Option e.Datum) : e.same none w = false := rfl

theorem same_comm (v w : Option e.Datum) : e.same v w = e.same w v := by
  cases v with
  | none => cases w <;> rfl
  | some v =>
    cases w with
    | none => rfl
    | some w =>
      simp only [same, compare, Truth.isTrue_ofBool]
      exact Bool.eq_iff_iff.mpr ⟨e.equal_symm v w, e.equal_symm w v⟩

/-- **Two values that equal a third are equal.** -/
theorem same_of_same {u v w : Option e.Datum} (h : e.same u v = true) (h' : e.same u w = true) :
    e.same v w = true := by
  rcases u with _ | u
  · cases h
  rcases v with _ | v
  · cases h
  rcases w with _ | w
  · cases h'
  simp only [same, compare, Truth.isTrue_ofBool] at h h' ⊢
  exact e.equal_trans v u w (e.equal_symm u v h) h'

end Engine

/-- The part of a result that a limit leaves. -/
def Limit.window {α : Type} (limit? : Option Limit) (rows : List α) : List α :=
  match limit? with
  | none => rows
  | some limit =>
    let skipped := match limit.offset? with
      | some ⟨_, .int n⟩ => rows.drop n.toInt.toNat
      | _ => rows
    match limit.count.value with
    | .int n => skipped.take n.toInt.toNat
    | _ => skipped

/-! ### Evaluation -/

/-- Is an item of a select list the number of rows. -/
def Selector.countsRows : Selector → Bool
  | .countRows => true
  | _ => false

/-- The bindings that a row can be joined to, with its counterparts among other rows. -/
def JoinOn.extend {e : Engine} (join? : Option JoinOn) (alias? : Option TableAlias)
    (rows : List (Row e)) (b : Binding e) : List (Binding e) :=
  match join? with
  | none => rows.map (b.set alias?)
  | some on =>
    let found := (rows.map (b.set alias?)).filter
      (fun c => e.same (on.outer.value c) (on.inner.value c))
    match on.kind, found with
    | .left, [] => [b.set alias? Row.null]
    | _, _ => found

mutual

/-- **The answers of a query**, within a binding of what is around it. -/
def Select.answers {e : Engine} (db : Database e) : Select → Binding e → List (Answer e)
  | ⟨entries, filter?, order?, limit?, _⟩, around =>
    let found := (Entry.bindings db entries around [around]).filter
      (fun b => (Condition.optionTruth db filter? b).isTrue)
    if entries.any (fun entry => entry.selectors.any Selector.countsRows) then
      Limit.window limit? [[("count", some (e.ofNumber found.length))]]
    else
      -- Rows that tie stay in the order in which they were found.
      let numbered := found.zipIdx
      let arranged := match order? with
        | none => numbered
        | some _ => numbered.mergeSort (fun b c =>
            e.arranges (OrderTerm.optionKeys db order? b.1) (OrderTerm.optionKeys db order? c.1))
      (Limit.window limit? arranged).map (fun b => Entry.cells db entries numbered b)

/-- The bindings of several sources, each joined to what the ones before it give. -/
def Entry.bindings {e : Engine} (db : Database e) :
    List Entry → Binding e → List (Binding e) → List (Binding e)
  | [], _, found => found
  | ⟨source, join?, _⟩ :: rest, around, found =>
    Entry.bindings db rest around
      (found.flatMap (JoinOn.extend join? source.alias? (Source.rows db source around)))

/-- The rows of a source. -/
def Source.rows {e : Engine} (db : Database e) : Source → Binding e → List (Row e)
  | .table table, _ => db table.name
  | .derived select, around => (Select.answers db select around).map Answer.row

/-- What is selected for one of the numbered bindings. -/
def Entry.cells {e : Engine} (db : Database e) :
    List Entry → List (Binding e × Nat) → Binding e × Nat → Answer e
  | [], _, _ => []
  | ⟨_, _, selectors⟩ :: rest, numbered, b =>
    Selector.cells db selectors numbered b ++ Entry.cells db rest numbered b

/-- What a part of a select list selects for one of the numbered bindings. -/
def Selector.cells {e : Engine} (db : Database e) :
    List Selector → List (Binding e × Nat) → Binding e × Nat → Answer e
  | [], _, _ => []
  | selector :: rest, numbered, b =>
    Selector.cell db selector numbered b :: Selector.cells db rest numbered b

/-- What an item of a select list selects for one of the numbered bindings. -/
def Selector.cell {e : Engine} (db : Database e) :
    Selector → List (Binding e × Nat) → Binding e × Nat → String × Option e.Datum
  | .column column rename?, _, b => (rename?.getD column.name, column.value b.1)
  | .one, _, _ => ("?column?", some (e.ofNumber 1))
  | .countRows, numbered, _ => ("count", some (e.ofNumber numbered.length))
  | .rowNumber order name, numbered, b =>
    let arranged := numbered.mergeSort (fun c d =>
      e.arranges (OrderTerm.keys db order c.1) (OrderTerm.keys db order d.1))
    (name, some (e.ofNumber (arranged.findIdx (fun c => c.2 = b.2) + 1)))

/-- The truth of a condition that may be absent. -/
def Condition.optionTruth {e : Engine} (db : Database e) : Option Condition → Binding e → Truth
  | none, _ => .holds
  | some condition, b => Condition.truth db condition b

/-- **The truth of a condition** for a binding. -/
def Condition.truth {e : Engine} (db : Database e) : Condition → Binding e → Truth
  | .comparison left op right, b =>
    if left.isNull && !right.isNull then e.compareNull op (Operand.value db right b)
    else if right.isNull then e.compareNull op (Operand.value db left b)
    else e.compare op (Operand.value db left b) (Operand.value db right b)
  | .logical op terms, b => op.truth (Condition.truths db terms b)
  | .not term, b => (Condition.truth db term b).not
  | .like column text kind, b => e.like (column.value b) text kind
  | .isIn column values, b =>
    Truth.any (values.map (fun p => e.compare .equal (column.value b) (e.parameter p.value)))
  | .nonempty select, b => .ofBool (!(Select.answers db select b).isEmpty)

/-- The truth of several conditions. -/
def Condition.truths {e : Engine} (db : Database e) : List Condition → Binding e → List Truth
  | [], _ => []
  | term :: rest, b => Condition.truth db term b :: Condition.truths db rest b

/-- The value of a side of a comparison. -/
def Operand.value {e : Engine} (db : Database e) : Operand → Binding e → Option e.Datum
  | .column column, b => column.value b
  | .parameter p, _ => e.parameter p.value
  | .null, _ => none
  | .count select, b =>
    match Select.answers db select b with
    | ((_, v) :: _) :: _ => v
    | _ => none

/-- The keys of an order that may be absent. -/
def OrderTerm.optionKeys {e : Engine} (db : Database e) :
    Option (List OrderTerm) → Binding e → List (Option e.Datum × Bool)
  | none, _ => []
  | some terms, b => OrderTerm.keys db terms b

/-- What a binding is ordered by. -/
def OrderTerm.keys {e : Engine} (db : Database e) :
    List OrderTerm → Binding e → List (Option e.Datum × Bool)
  | [], _ => []
  | ⟨target, descending⟩ :: rest, b =>
    (OrderTarget.value db target b, descending) :: OrderTerm.keys db rest b

/-- The value that a criterion orders by. -/
def OrderTarget.value {e : Engine} (db : Database e) :
    OrderTarget → Binding e → Option e.Datum
  | .column column, b => column.value b
  | .count select, b =>
    match Select.answers db select b with
    | ((_, v) :: _) :: _ => v
    | _ => none

end

/-! ### Conditions -/

namespace Condition

variable {e : Engine} {db : Database e} {b : Binding e}

theorem truths_eq_map (terms : List Condition) :
    Condition.truths db terms b = terms.map (fun term => term.truth db b) := by
  induction terms with
  | nil => rfl
  | cons term rest ih => rw [Condition.truths, ih, List.map_cons]

/-- **Merging terms of the same operator does not change the truth.** -/
theorem truth_combine (op : LogicalOp) (terms : List Condition) :
    (combine op terms).truth db b = op.truth (terms.map (fun term => term.truth db b)) := by
  have merged : ∀ term : Condition,
      op.truth ((termsFor op term).map (fun part => part.truth db b)) = term.truth db b := by
    intro term
    unfold termsFor
    split
    · rename_i inner parts
      split
      · rename_i same
        rw [Condition.truth, truths_eq_map, same]
      · rw [List.map_singleton, LogicalOp.truth_singleton]
    · rw [List.map_singleton, LogicalOp.truth_singleton]
  have whole : (combine op terms).truth db b
      = op.truth ((terms.flatMap (termsFor op)).map (fun part => part.truth db b)) := by
    unfold combine
    split
    · rename_i term single
      rw [single, List.map_singleton, LogicalOp.truth_singleton]
    · rw [Condition.truth, truths_eq_map]
  rw [whole, List.map_flatMap, LogicalOp.truth_flatMap]
  simp only [merged]

end Condition

/-! ### Joins -/

namespace Entry

variable {e : Engine} {db : Database e} {around : Binding e}

/-- Bindings are joined one by one. -/
theorem bindings_eq_flatMap (entries : List Entry) (found : List (Binding e)) :
    bindings db entries around found
      = found.flatMap (fun b => bindings db entries around [b]) := by
  induction entries generalizing found with
  | nil => simp [bindings]
  | cons entry rest ih =>
    obtain ⟨source, join?, selectors⟩ := entry
    have step : ∀ b, bindings db (⟨source, join?, selectors⟩ :: rest) around [b]
        = (JoinOn.extend join? source.alias? (source.rows db around) b).flatMap
          (fun c => bindings db rest around [c]) := by
      intro b
      rw [bindings, List.flatMap_singleton, ih]
    simp only [step]
    rw [bindings, ih, List.flatMap_assoc]

/-- **The last source is joined to what the others give.** -/
theorem bindings_concat (entries : List Entry) (source : Source) (join? : Option JoinOn)
    (selectors : List Selector) (found : List (Binding e)) :
    bindings db (entries ++ [⟨source, join?, selectors⟩]) around found
      = (bindings db entries around found).flatMap
        (JoinOn.extend join? source.alias? (source.rows db around)) := by
  induction entries generalizing found with
  | nil => simp [bindings]
  | cons entry rest ih =>
    obtain ⟨source', join?', selectors'⟩ := entry
    rw [List.cons_append, bindings, bindings, ih]

end Entry

end ResourceQuery.Sql
