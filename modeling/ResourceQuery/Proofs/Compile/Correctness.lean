import ResourceQuery.Proofs.Compile.Agreement
import ResourceQuery.Proofs.Compile.Joining
import ResourceQuery.Proofs.Compile.Soundness

/-!
# Compiled filters mean what they say

The condition that a filter becomes is true of the binding of a row just when the filter is true of
the row.  So the query that counts resources counts the rows that the filter admits.

## Main Statements

- `Compile.Walks.follows`: the joins of a path show the row that the path leads to.
- `Compile.ManyAt.rows_eq`: a query inside ranges over the rows at the end of a path.
- `Filter.Becomes.truth`: the condition that a filter becomes has the filter's truth.
- `Compile.countQuery_counts`: the query that counts resources counts the rows that the filter
  admits.

## Design Notes

The truth of a condition is stated for every settled binding of the draft that the filter leaves.  A
binding that is settled for a later draft is settled for every earlier one, so the parts of a filter
are looked at in the binding of the whole.
-/

namespace ResourceQuery

open Sql (Table Source Select Selector Entry Column Condition Operand Remap TableAlias Engine Row
  Database Binding Truth)

/-! ### Rows along paths -/

namespace Compile

section Paths

variable {schema : Schema} {start : Source} {p q : Progress} {source target table : Table}
  {e : Engine} {db : Database e} {b : Binding e}

/-- What was joined earlier is settled if everything is. -/
theorem settled_of_quiet (settled : b.Settled db q.draft.joins) (quiet : p.Quiet q) :
    b.Settled db p.draft.joins := by
  obtain ⟨more, hmore, -⟩ := quiet.joins
  refine settled.mono ?_
  rw [hmore]
  exact List.subset_append_left _ _

/-- **The joins of a path show the row that the path leads to**, or nulls if it leads nowhere. -/
theorem Walks.follows {path : Path} (walks : Walks schema p source path target q)
    (fits : p.Fits schema start) (known : p.draft.Knows schema start source)
    (settled : b.Settled db q.draft.joins) {row? : Option (Row e)}
    (shown : b source.tableAlias = row?.getD Row.null) :
    b target.tableAlias
      = (schema.follow db source.resourceType path row?).getD Row.null := by
  induction walks generalizing row? with
  | arrived => exact shown
  | @step p middle r source next target name rest relationship declared toOne reaches walks ih =>
    obtain ⟨key, outer, inner, connects, mem⟩ := reaches.exists_join fits known
    obtain ⟨fits', known'⟩ := reaches.fits fits known
    have joined := settled_of_quiet settled walks.quiet _ mem next rfl
    have named := Sql.Table.alias?_of_mem_columns (connects.mem_columns known.stored).1
    simp only [Column.value, named, shown] at joined
    rw [Schema.follow, ← connects.resourceType_eq]
    refine ih fits' known' settled ?_
    rw [joined]
    -- A null key equals nothing, so a path that leads nowhere stays there.
    cases row? with
    | none =>
      rw [List.find?_eq_none.mpr (by simp [Row.null])]
      rfl
    | some row =>
      rw [Option.bind_some, connects.relatedRows_eq known.stored, List.head?_filter]
      rfl

/-- The column of a field has the value of the field. -/
theorem FieldAt.value_eq {path : Path} {c : Column} {info : FieldColumn} {row : Row e}
    (at_ : FieldAt schema p table path c info q) (fits : p.Fits schema start)
    (known : p.draft.Knows schema start table) (settled : b.Settled db q.draft.joins)
    (shown : b table.tableAlias = row) :
    schema.fieldAt? table.resourceType path
        = some (info.column, (OperandType.field info).valueType)
      ∧ c.value b = schema.valueAt db table.resourceType path row := by
  obtain ⟨name, owner, ends, walks, hfield, hcolumn⟩ := at_
  obtain ⟨-, known'⟩ := walks.fits fits known
  obtain ⟨ownerInfo, stores⟩ := known'.stored
  obtain ⟨c', mem, hc', named⟩ := getColumn_of_field stores hfield
  rw [hcolumn] at hc'
  cases hc'
  have found : schema.fieldAt? table.resourceType path
      = some (info.column, (OperandType.field info).valueType) := by
    rw [Schema.fieldAt?, ends, ← walks.resourceType_eq fits known]
    exact Schema.stored?_of_field hfield
  refine ⟨found, ?_⟩
  have leads := walks.follows fits known settled
    (show b table.tableAlias = (some row).getD _ from shown)
  simp only [Column.value, Sql.Table.alias?_of_mem_columns mem, leads, named, Schema.valueAt, found]
  cases schema.follow db table.resourceType path.dropLast (some row) with
  | none => rfl
  | some owner => rfl

/-- **The rows that meet the key of a to-many relationship** are those at the end of the path. -/
theorem ManyAt.rows_eq {path : Path} {owner : Table} {name : String} {key : ForeignKey}
    {outer inner : Column} {row : Row e} (many : ManyAt schema p table path owner name q)
    (connects : Connects schema owner name target key outer inner) (fits : p.Fits schema start)
    (known : p.draft.Knows schema start table) (settled : b.Settled db q.draft.joins)
    (shown : b table.tableAlias = row) :
    (db target.name).filter (fun other => e.same (outer.value b) (other inner.name))
      = schema.rowsAt db table.resourceType path row := by
  obtain ⟨ends, walks, -⟩ := many
  obtain ⟨-, known'⟩ := walks.fits fits known
  have leads := walks.follows fits known settled
    (show b table.tableAlias = (some row).getD _ from shown)
  have named := Sql.Table.alias?_of_mem_columns (connects.mem_columns known'.stored).1
  simp only [Column.value, named, leads, Schema.rowsAt, ends]
  cases schema.follow db table.resourceType path.dropLast (some row) with
  | none => simp [Row.null]
  | some owner =>
    simp only [Option.getD_some]
    rw [← walks.resourceType_eq fits known, connects.relatedRows_eq known'.stored]

end Paths

/-! ### Queries over a table -/

section Queries

variable {schema : Schema} {table : Table} {d : Draft} {condition? : Option Condition}
  {outer inner : Column} {e : Engine} {db : Database e} {around : Binding e}

/-- The bindings of a query over a table that meet a condition. -/
def foundIn (db : Database e) (table : Table) (shape : QueryShape) (d : Draft)
    (filter? : Option Condition) (around : Binding e) : List (Binding e) :=
  (Entry.bindings db (d.entries (.table table) (shape.selectors table)) around [around]).filter
    (fun b => (Condition.optionTruth db filter? b).isTrue)

/-- A query for a number returns the number of bindings. -/
theorem answers_count (filter? : Option Condition) :
    Select.answers db (plainQuery table .count d filter?) around
      = [[("count", some (e.ofNumber (foundIn db table .count d filter? around).length))]] := by
  rw [plainQuery, Select.answers, if_pos]
  · rfl
  · rfl

/-- A query for the constant one returns something if there is a binding. -/
theorem isEmpty_answers_one (unselected : d.selectors = []) (filter? : Option Condition) :
    (Select.answers db (plainQuery table .one d filter?) around).isEmpty
      = (foundIn db table .one d filter? around).isEmpty := by
  have nothing : ∀ source, d.selectorsOf source = [] := by
    intro source
    unfold Draft.selectorsOf
    rw [unselected]
    split <;> rfl
  rw [plainQuery, Select.answers, if_neg]
  · rw [Bool.eq_iff_iff]
    simp [Sql.Limit.window, foundIn]
  · simp [Draft.entries, nothing, QueryShape.selectors, Sql.Selector.countsRows]

/-- The condition of a query over related rows: the keys are equal, and what else is asked. -/
theorem isTrue_related {shape : QueryShape} (b : Binding e) :
    (Condition.optionTruth db (relatedQuery table shape d condition? outer inner).filter? b).isTrue
      = (e.same (outer.value b) (inner.value b)
        && (Condition.optionTruth db condition? b).isTrue) := by
  have key : (Condition.columnsEqual outer inner).truth db b
      = e.compare .equal (outer.value b) (inner.value b) := by
    simp [Condition.columnsEqual, Condition.truth, Operand.isNull, Operand.value]
  cases condition? with
  | none =>
    simp only [relatedQuery, plainQuery, Select.restrict, Condition.optionTruth, key]
    simp [Engine.same, Truth.isTrue]
  | some existing =>
    simp only [relatedQuery, plainQuery, Select.restrict, Condition.optionTruth, Condition.all,
      Condition.truth_combine, List.map_cons, List.map_nil, key]
    show (Truth.and _ (Truth.and _ .holds)).isTrue = _
    rw [Truth.and_holds, Truth.isTrue_and]
    rfl

/-- **A query over related rows finds as many bindings as there are related rows** of which the
condition holds. -/
theorem length_foundIn_related {shape : QueryShape} {o : TableAlias} {metRow : Row e → Bool}
    (chain : Chain schema table d.joins) (nullable : schema.KeysNullable)
    (keyed : schema.Keyed db) (named : outer.alias? = some o) (mem : inner ∈ table.columns)
    (ne : o ≠ table.tableAlias) (unlisted : ∀ join ∈ d.joins, join.source.alias? ≠ some o)
    (agree : ∀ row c, c.Settled db d.joins → c table.tableAlias = row →
      (Condition.optionTruth db condition? c).isTrue = metRow row) :
    (foundIn db table shape d (relatedQuery table shape d condition? outer inner).filter?
        around).length
      = ((db table.name).filter (fun row =>
          e.same (outer.value around) (row inner.name))).countP metRow := by
  rw [List.countP_filter]
  refine chain.length_found nullable keyed _ around fun row c settled shown others => ?_
  have outside : outer.value c = outer.value around := by
    simp only [Column.value, named, others o ne unlisted]
  have inside : inner.value c = row inner.name := by
    simp only [Column.value, Sql.Table.alias?_of_mem_columns mem, shown]
  rw [isTrue_related, agree row c settled shown, outside, inside, Bool.and_comm]

end Queries

end Compile

/-! ### Comparisons -/

namespace Compile

section Comparisons

variable {schema : Schema} {start : Source} {p q : Progress} {table : Table} {e : Engine}
  {db : Database e} {b : Binding e} {row : Row e}

/-- **A query inside ranges over the rows at the end of the path.**  Its aliases are later ones, so
the reference to the row outside is not captured. -/
theorem ManyAt.length_foundIn {path : Path} {owner target : Table} {name : String}
    {key : ForeignKey} {outer inner : Column} {shape : QueryShape} {d : Draft}
    {condition? : Option Condition} {metRow : Row e → Bool}
    (many : ManyAt schema p table path owner name q)
    (connects : Connects schema owner name target key outer inner)
    (named : target.tableAlias = ⟨q.names.tables + 1⟩) (nullable : schema.KeysNullable)
    (keyed : schema.Keyed db) (fits : p.Fits schema start)
    (known : p.draft.Knows schema start table) (settled : b.Settled db q.draft.joins)
    (shown : b table.tableAlias = row) (chain : Chain schema target d.joins)
    (later : ∀ join ∈ d.joins, ∀ a, join.source.alias? = some a → q.names.tables < a.index)
    (agree : ∀ row c, c.Settled db d.joins → c target.tableAlias = row →
      (Condition.optionTruth db condition? c).isTrue = metRow row) :
    (foundIn db target shape d (relatedQuery target shape d condition? outer inner).filter?
        b).length
      = (schema.rowsAt db table.resourceType path row).countP metRow := by
  obtain ⟨fits', known'⟩ := many.2.1.fits fits known
  obtain ⟨houter, hinner⟩ := connects.mem_columns known'.stored
  have le := fits'.alias_le_of_knows known'
  have ne : owner.tableAlias ≠ target.tableAlias := by
    intro same
    rw [same, named] at le
    exact absurd le (Nat.not_succ_le_self _)
  have unlisted : ∀ join ∈ d.joins, join.source.alias? ≠ some owner.tableAlias :=
    fun join mem same => absurd (later join mem _ same) (Nat.not_lt.mpr le)
  rw [← many.rows_eq connects fits known settled shown]
  exact length_foundIn_related chain nullable keyed (Sql.Table.alias?_of_mem_columns houter) hinner
    ne unlisted agree

/-- The number that a query inside returns is the number of rows at the end of the path. -/
theorem CountAt.value_eq {path : Path} {select : Select}
    (at_ : CountAt schema p table path select q) (nullable : schema.KeysNullable)
    (keyed : schema.Keyed db) (fits : p.Fits schema start)
    (known : p.draft.Knows schema start table) (settled : b.Settled db q.draft.joins)
    (shown : b table.tableAlias = row) :
    (Operand.count select).value db b
      = some (e.ofNumber (schema.rowsAt db table.resourceType path row).length) := by
  obtain ⟨owner, name, r, target, key, outer, inner, many, connects, named, rfl, rfl⟩ := at_
  have counted : (foundIn db target .count Draft.empty
      (relatedQuery target .count Draft.empty none outer inner).filter? b).length
      = (schema.rowsAt db table.resourceType path row).countP (fun _ => true) :=
    many.length_foundIn connects named nullable keyed fits known settled shown .nil
      (fun join mem => absurd mem List.not_mem_nil) (fun _ _ _ _ => rfl)
  have answers : Select.answers db (relatedQuery target .count Draft.empty none outer inner) b
      = [[("count", some (e.ofNumber (foundIn db target .count Draft.empty
          (relatedQuery target .count Draft.empty none outer inner).filter? b).length))]] :=
    answers_count _
  rw [Operand.value, answers, counted, List.countP_true]

/-- A query inside returns something if one of its rows meets the condition. -/
theorem nonempty_related {target : Table} {outer inner : Column} {d : Draft}
    {condition? : Option Condition} {rows : List (Row e)} {metRow : Row e → Bool}
    (unselected : d.selectors = [])
    (counted : (foundIn db target .one d
      (relatedQuery target .one d condition? outer inner).filter? b).length = rows.countP metRow) :
    (!(Select.answers db (relatedQuery target .one d condition? outer inner) b).isEmpty)
      = rows.any metRow := by
  have answers : (Select.answers db (relatedQuery target .one d condition? outer inner) b).isEmpty
      = (foundIn db target .one d
        (relatedQuery target .one d condition? outer inner).filter? b).isEmpty :=
    isEmpty_answers_one unselected _
  rw [answers, Bool.eq_iff_iff]
  simp only [Bool.not_eq_true', List.any_eq_true]
  rw [← List.countP_pos_iff, ← counted, List.length_pos_iff, Bool.eq_false_iff, ne_eq,
    List.isEmpty_iff]

/-- A side of a comparison gives the type that its expression gives. -/
theorem Pending.type?_eq {side : Expression} {pending : PendingOperand}
    (h : Pending schema table p side pending q) (fits : p.Fits schema start)
    (known : p.draft.Knows schema start table) :
    pending.type?.map OperandType.valueType = side.type? schema table.resourceType := by
  cases h with
  | field at_ =>
    obtain ⟨name, owner, ends, walks, hfield, -⟩ := at_
    rw [Expression.type?, Schema.fieldAt?, ends, ← walks.resourceType_eq fits known,
      Option.bind_some, Schema.stored?_of_field hfield]
    rfl
  | count => rfl
  | constant => rfl
  | nullConstant => rfl
  | null => rfl

/-- A side of a comparison is null if its expression is. -/
theorem Pending.isNull_eq {side : Expression} {pending : PendingOperand} {type : OperandType}
    {operand : Operand} (h : Pending schema table p side pending q)
    (finishes : Finishes schema type pending operand) : operand.isNull = side.isNull := by
  cases h with
  | field => cases finishes; rfl
  | count => cases finishes; rfl
  | constant given =>
    cases finishes
    simp [Operand.isNull, Expression.isNull, given]
  | nullConstant => cases finishes; rfl
  | null => cases finishes; rfl

/-- **A side of a comparison has the value of its expression.** -/
theorem Pending.value_eq {side : Expression} {pending : PendingOperand} {type : OperandType}
    {operand : Operand} (h : Pending schema table p side pending q)
    (finishes : Finishes schema type pending operand) (nullable : schema.KeysNullable)
    (keyed : schema.Keyed db) (fits : p.Fits schema start)
    (known : p.draft.Knows schema start table) (settled : b.Settled db q.draft.joins)
    (shown : b table.tableAlias = row) :
    operand.value db b = side.meaning schema db table.resourceType type.valueType row := by
  cases h with
  | field at_ =>
    cases finishes
    rw [Operand.value, (at_.value_eq fits known settled shown).2]
    rfl
  | count at_ =>
    cases finishes
    exact at_.value_eq nullable keyed fits known settled shown
  | constant given =>
    cases finishes with
    | constant typed =>
      rw [Operand.value, Expression.meaning, typedConstant_of_constantValue typed]
  | nullConstant =>
    cases finishes
    exact (schema.typedConstant_null e type.valueType).symm
  | null =>
    cases finishes
    rfl

theorem value_of_isNull {operand : Operand} (h : operand.isNull = true) :
    operand.value db b = none := by
  cases operand with
  | null => rfl
  | column => cases h
  | parameter => cases h
  | count => cases h

/-- **A comparison has the truth of its expressions.** -/
theorem Compares.truth_eq {kind : ComparisonKind} {left right : Expression}
    {condition : Condition} (compares : Compares schema table kind left right p condition q)
    (nullable : schema.KeysNullable) (keyed : schema.Keyed db) (fits : p.Fits schema start)
    (known : p.draft.Knows schema start table) (settled : b.Settled db q.draft.joins)
    (shown : b table.tableAlias = row) :
    condition.truth db b = kind.meaning schema db table.resourceType left right row := by
  obtain ⟨l, r, type, lo, ro, middle, last, parameters, hl, hr, typed, fl, fr, equality, rfl,
    rfl⟩ := compares
  have fits' := hl.fits fits known
  have known' := fits.knows_extends hl.quiet.toExtends known
  have v := hl.value_eq fl nullable keyed fits known 
    (settled_of_quiet (q := last) settled hr.quiet) shown
  have w := hr.value_eq fr nullable keyed fits' known' settled shown
  have asked : (left.type? schema table.resourceType <|> right.type? schema table.resourceType)
      = some type.valueType := by
    rw [Option.orElse_eq_orElse, Option.orElse_eq_or] at typed ⊢
    rw [← hl.type?_eq fits known, ← hr.type?_eq fits' known', ← Option.map_or, typed]
    rfl
  have nulls := congrArg₂ or (hl.isNull_eq fl) (hr.isNull_eq fr)
  rw [Condition.truth, ComparisonKind.meaning, asked, ← comparisonOp_eq]
  simp only [← v, ← w, ← nulls]
  -- Only a test for null has a null side, and then the other side decides.
  cases hlo : lo.isNull with
  | true =>
    obtain rfl := equality (by simp [hlo])
    cases hro : ro.isNull <;> simp [value_of_isNull hlo, value_of_isNull, hro, comparisonOp,
      Engine.compareNull]
  | false =>
    cases hro : ro.isNull with
    | true =>
      obtain rfl := equality (by simp [hro])
      simp [value_of_isNull hro, comparisonOp, Engine.compareNull]
    | false => simp

/-- Values that are given are compared, and null is tested for. -/
theorem any_eq {given : List Sql.Parameter} {type : OperandType} {values : List Json}
    (typed : List.Forall₂ (fun value parameter =>
      constantValue schema type value = .ok parameter.value)
      (values.filter (fun v => v ≠ .null)) given) (v : Option e.Datum) :
    Truth.any (values.map (fun value => if value = .null then .ofBool v.isNone
        else e.compare .equal v (schema.typedConstant e type.valueType value)))
      = (Truth.any (given.map (fun p => e.compare .equal v (e.parameter p.value)))).or
        (if values.any (fun v => v = .null) then .ofBool v.isNone else .fails) := by
  induction values generalizing given with
  | nil =>
    cases typed
    rfl
  | cons value rest ih =>
    -- The test for null commutes with the other terms, and a second one adds nothing.
    by_cases isNull : value = .null
    · rw [List.filter_cons_of_neg (by simp [isNull])] at typed
      rw [List.map_cons, if_pos isNull, List.any_cons]
      show Truth.or _ (Truth.any _) = _
      rw [ih typed, Truth.or_comm, Truth.or_assoc]
      simp only [isNull, decide_true, Bool.true_or, if_true]
      congr 1
      split
      · exact Truth.or_self _
      · rfl
    · rw [List.filter_cons_of_pos (by simp [isNull])] at typed
      cases typed with
      | cons first others =>
        rename_i parameter given
        have constant := typedConstant_of_constantValue first e
        rw [List.map_cons, if_neg isNull, List.any_cons, List.map_cons]
        show Truth.or _ (Truth.any _) = Truth.or (Truth.or _ (Truth.any _)) _
        rw [ih others, constant, Truth.or_assoc]
        simp [isNull]

/-- The truth of the terms of a list of values. -/
theorem truth_anyTerms (c : Column) (given : List Sql.Parameter) (withNull : Bool) :
    (Condition.any (anyTerms c given withNull)).truth db b
      = (Truth.any (given.map (fun p => e.compare .equal (c.value b) (e.parameter p.value)))).or
        (if withNull then .ofBool (c.value b).isNone else .fails) := by
  have among : ∀ given : List Sql.Parameter, (Condition.equalsAny c given).truth db b
      = Truth.any (given.map (fun p => e.compare .equal (c.value b) (e.parameter p.value))) := by
    intro given
    unfold Condition.equalsAny
    split
    · rw [Condition.equals, Condition.truth]
      exact (Sql.LogicalOp.truth_singleton .or _).symm
    · rw [Condition.truth]
  have isNull : (Condition.isNull c).truth db b = .ofBool (c.value b).isNone := by
    rw [Condition.isNull, Condition.truth]
    rfl
  rw [Condition.any, Condition.truth_combine, anyTerms, List.map_append, Sql.LogicalOp.truth_append]
  show Truth.or _ (Truth.or _ .fails) = _
  rw [Truth.or_fails]
  congr 1
  · cases given with
    | nil => rfl
    | cons first rest =>
      rw [← among]
      exact Sql.LogicalOp.truth_singleton .or _
  · cases withNull with
    | false => rfl
    | true =>
      rw [if_pos rfl, if_pos rfl, ← isNull]
      exact Sql.LogicalOp.truth_singleton .or _

end Comparisons

end Compile

/-! ### Filters -/

namespace Filter

variable {schema : Schema} {e : Engine} {db : Database e}

mutual

/-- **The condition that a filter becomes has the filter's truth**, in every settled binding. -/
theorem Becomes.truth {start : Source} {table : Table} {p q : Progress} {condition : Condition}
    {b : Binding e} {row : Row e} (nullable : schema.KeysNullable) (keyed : schema.Keyed db) :
    (filter : Filter) → filter.Becomes schema table p condition q → p.Fits schema start →
      p.draft.Knows schema start table → b.Settled db q.draft.joins → b table.tableAlias = row →
      condition.truth db b = filter.meaning schema db table.resourceType row
  | .comparison _ _ _, h, fits, known, settled, shown => by
    simp only [Becomes] at h
    rw [meaning]
    exact h.truth_eq nullable keyed fits known settled shown
  | .and terms, h, fits, known, settled, shown => by
    simp only [Becomes] at h
    obtain ⟨conditions, h, rfl⟩ := h
    rw [meaning, ← AllBecome.truth nullable keyed terms h fits known settled shown, Condition.all,
      Condition.truth_combine]
    rfl
  | .or terms, h, fits, known, settled, shown => by
    simp only [Becomes] at h
    obtain ⟨conditions, h, rfl⟩ := h
    rw [meaning, ← AllBecome.truth nullable keyed terms h fits known settled shown, Condition.any,
      Condition.truth_combine]
    rfl
  | .not term, h, fits, known, settled, shown => by
    simp only [Becomes] at h
    obtain ⟨inner, h, rfl⟩ := h
    rw [meaning, Condition.truth, Becomes.truth nullable keyed term h fits known settled shown]
  | .textMatch _ _ _, h, fits, known, settled, shown => by
    simp only [Becomes] at h
    obtain ⟨c, info, at_, rfl⟩ := h
    rw [meaning, Condition.truth, (at_.value_eq fits known settled shown).2]
  | .any _ _, h, fits, known, settled, shown => by
    simp only [Becomes] at h
    obtain ⟨c, info, given, last, parameters, at_, typed, rfl, rfl⟩ := h
    obtain ⟨found, value⟩ := at_.value_eq fits known settled shown
    rw [meaning]
    simp only [found]
    rw [Compile.truth_anyTerms, Compile.any_eq typed, value]
  | .has relationship filter?, h, fits, known, settled, shown => by
    simp only [Becomes] at h
    obtain ⟨owner, name, r, target, key, outer, inner, condition?, last, many, connects, named,
      below, rfl, rfl⟩ := h
    obtain ⟨started, own⟩ := connects.starts named r.names.parameters
    have quiet := OptionBecomes.quiet filter? below
    have chain := OptionBecomes.chain below started own rfl .nil
    -- Everything joined inside has a later alias than what is outside.
    have later : ∀ join ∈ last.draft.joins, ∀ a, join.source.alias? = some a →
        r.names.tables < a.index := by
      obtain ⟨more, hmore, fresh⟩ := quiet.toExtends.joins
      intro join mem a named
      rw [hmore] at mem
      exact Nat.lt_of_succ_lt (fresh join mem a named)
    have counted : (Compile.foundIn db target .one last.draft
        (Compile.relatedQuery target .one last.draft condition? outer inner).filter? b).length
        = (schema.rowsAt db table.resourceType relationship row).countP (fun other =>
          (optionMeaning schema db target.resourceType filter? other).isTrue) :=
      many.length_foundIn connects named nullable keyed fits known settled shown chain later
        fun other c inside at_ => congrArg Truth.isTrue
          (OptionBecomes.truth nullable keyed filter? below started own inside at_)
    rw [meaning, Condition.truth, ← many.resourceType_eq connects fits known]
    exact congrArg Truth.ofBool (Compile.nonempty_related quiet.selectors counted)
  | .isType _ _, h, _, _, _, _ => by
    simp only [Becomes] at h

theorem AllBecome.truth {start : Source} {table : Table} {p q : Progress}
    {conditions : List Condition} {b : Binding e} {row : Row e} (nullable : schema.KeysNullable)
    (keyed : schema.Keyed db) :
    (terms : List Filter) → AllBecome schema table terms p conditions q → p.Fits schema start →
      p.draft.Knows schema start table → b.Settled db q.draft.joins → b table.tableAlias = row →
      conditions.map (fun term => term.truth db b)
        = meanings schema db table.resourceType terms row
  | [], h, _, _, _, _ => by
    simp only [AllBecome] at h
    rw [h.1]
    rfl
  | term :: rest, h, fits, known, settled, shown => by
    simp only [AllBecome] at h
    obtain ⟨condition, others, middle, first, after, rfl⟩ := h
    have quiet := AllBecome.quiet rest after
    have grown := (Becomes.quiet term first).toExtends
    rw [List.map_cons, meanings, Becomes.truth nullable keyed term first fits known
      (Compile.settled_of_quiet settled quiet) shown,
      AllBecome.truth nullable keyed rest after (Becomes.fits term first fits known)
        (fits.knows_extends grown known) settled shown]

theorem OptionBecomes.truth {start : Source} {table : Table} {p q : Progress}
    {condition? : Option Condition} {b : Binding e} {row : Row e} (nullable : schema.KeysNullable)
    (keyed : schema.Keyed db) :
    (filter? : Option Filter) → OptionBecomes schema table filter? p condition? q →
      p.Fits schema start → p.draft.Knows schema start table → b.Settled db q.draft.joins →
      b table.tableAlias = row →
      Condition.optionTruth db condition? b
        = optionMeaning schema db table.resourceType filter? row
  | none, h, _, _, _, _ => by
    simp only [OptionBecomes] at h
    rw [h.1]
    rfl
  | some filter, h, fits, known, settled, shown => by
    simp only [OptionBecomes] at h
    obtain ⟨condition, h, rfl⟩ := h
    rw [optionMeaning, Condition.optionTruth]
    exact Becomes.truth nullable keyed filter h fits known settled shown

end

end Filter

/-! ### Counting -/

/-- **The query that counts resources counts the rows on which the filter is true**, whatever names
have been given out before.  Identifiers may even be null. -/
theorem Compile.countQuery_counts {schema : Schema} {e : Engine} {db : Database e}
    {resourceType : String} {filter? : Option Filter} {select : Select} {p q : Progress}
    (nullable : schema.KeysNullable) (keyed : schema.Keyed db)
    (h : countQuery schema resourceType filter? p = .ok (select, q)) :
    ∃ info, schema.resourceType resourceType = .ok info
      ∧ select.answers db Binding.empty = [[("count", some (e.ofNumber
        ((db info.tableName).countP (fun row =>
          (Filter.optionMeaning schema db resourceType filter? row).isTrue))))]] := by
  obtain ⟨-, table, condition?, last, htable, restricts, rfl⟩ :=
    (ensures_countQuery schema resourceType filter? p).of_ok h
  obtain ⟨leads, named, info, stores⟩ := Schema.stores_of_table htable
  have fits : Progress.Fits schema (.table table)
      ⟨⟨p.names.tables + 1, p.names.parameters⟩, Draft.empty⟩ :=
    .ofTable (Sql.TableAlias.index_le named)
  have known : Draft.empty.Knows schema (.table table) table := Draft.knows_start stores
  have chain := Filter.OptionBecomes.chain restricts fits known rfl .nil
  have counted : (foundIn db table .count last.draft condition? Binding.empty).length
      = (db table.name).countP (fun row =>
        (Filter.optionMeaning schema db table.resourceType filter? row).isTrue) :=
    chain.length_found nullable keyed _ _ fun row c settled shown _ => congrArg Truth.isTrue
      (Filter.OptionBecomes.truth nullable keyed filter? restricts fits known settled shown)
  refine ⟨info, ?_, ?_⟩
  · rw [← leads]
    exact stores.described
  · rw [answers_count, counted, stores.named, leads]

/-! ### An outline of items -/

namespace Outline

open Schema.Todo (optionalColumn requiredColumn stored link)

/-- Items below other items, with an optional note. -/
def schema : Schema where
  resourceTypes := Dict.ofList [
    ("items", {
      tableName := "Items"
      idColumn := "Id"
      columns := Dict.ofList [requiredColumn "Id" .bigint, requiredColumn "Title" .text,
        optionalColumn "ParentId" .bigint]
      attributes := Dict.ofList [stored "title" "Title"]
      relationships := Dict.ofList [
        link "parent" "items" .one .left "ParentId" "children",
        link "children" "items" .many .right "ParentId" "parent",
        link "note" "notes" .one .right "ItemId" "item"] }),
    ("notes", {
      tableName := "Notes"
      idColumn := "Id"
      columns := Dict.ofList [requiredColumn "Id" .bigint, optionalColumn "Text" .text,
        optionalColumn "ItemId" .bigint]
      attributes := Dict.ofList [stored "text" "Text"]
      relationships := Dict.ofList [link "item" "items" .one .left "ItemId" "note"] })]
  enumTypes := ∅

/-- Values are compared as they are, and only texts are matched. -/
def engine : Engine where
  Datum := Sql.Value
  ofConstant := id
  ofNumber n := .int (Int64.ofNat n)
  compares op v w := match op, v, w with
    | .equal, v, w => v = w
    | .notEqual, v, w => v ≠ w
    | .less, .int m, .int n => m < n
    | .lessOrEqual, .int m, .int n => m ≤ n
    | .greater, .int m, .int n => n < m
    | .greaterOrEqual, .int m, .int n => n ≤ m
    | _, _, _ => false
  matchesText v text kind := match v, kind with
    | .string s, .startsWith => text.toList.isPrefixOf s.toList
    | .string s, .endsWith => text.toList.isSuffixOf s.toList
    | .string s, .contains => s.toList.tails.any text.toList.isPrefixOf
    | _, _ => false
  sorts v w := match v, w with
    | some (.int m), some (.int n) => m ≤ n
    | _, none => true
    | _, _ => false
  equal_symm := by simp [eq_comm]
  equal_trans := by
    intro u v w h h'
    simp_all

/-- A row with values for some columns. -/
def row (cells : List (String × Sql.Value)) : Row engine :=
  fun name => cells.lookup name

/-- Two chapters, of which the first has a note and two sections. -/
def database : Database engine := fun name =>
  if name = "Items" then [
    row [("Id", .int 1), ("Title", .string "Chapter")],
    row [("Id", .int 2), ("Title", .string "Chapter")],
    row [("Id", .int 3), ("Title", .string "Section"), ("ParentId", .int 1)],
    row [("Id", .int 4), ("Title", .string "Section"), ("ParentId", .int 1)],
    row [("Id", .int 5), ("Title", .string "Figure"), ("ParentId", .int 3)]]
  else if name = "Notes" then [
    row [("Id", .int 1), ("Text", .string "draft"), ("ItemId", .int 1)],
    row [("Id", .int 2), ("ItemId", .int 3)]]
  else []

/-- Items below a noted item, and items without a parent that have more than one section. -/
def filter : Filter :=
  .or [
    .any ["parent", "note", "text"] [.string "final", .string "draft"],
    .and [
      .comparison .equals (.field ["parent", "id"]) .null,
      .comparison .greaterThan (.count ["children"]) (.constant (.number (.int 1 (by decide)))),
      .not (.has ["children"] (some (.not (.textMatch ["title"] "Sec" .startsWith))))]]

end Outline

/-- One chapter and its two sections are counted. -/
theorem Compile.countQuery_counts_outline :
    Outline.schema.KeysNullable ∧ Outline.schema.Keyed Outline.database
      ∧ ∃ select q, countQuery Outline.schema "items" (some Outline.filter) Progress.start
          = .ok (select, q)
        ∧ select.answers Outline.database Binding.empty
          = [[("count", some (Outline.engine.ofNumber 3))]] := by
  have nullable : Outline.schema.KeysNullable := by decide +kernel
  have keyed : Outline.schema.Keyed Outline.database := ⟨by decide +kernel, by decide +kernel⟩
  have isOk : (countQuery Outline.schema "items" (some Outline.filter) Progress.start).isOk
      = true := by decide +kernel
  obtain ⟨⟨select, q⟩, h⟩ := exists_of_isOk isOk
  obtain ⟨info, described, answers⟩ := countQuery_counts nullable keyed h
  have stored : (Outline.schema.resourceType "items").toOption.map ResourceType.tableName
      = some "Items" := by decide +kernel
  have three : (Outline.database "Items").countP (fun row => (Filter.optionMeaning Outline.schema
      Outline.database "items" (some Outline.filter) row).isTrue) = 3 := by
    simp only [Outline.filter, Filter.optionMeaning, Filter.meaning, Filter.meanings,
      ComparisonKind.meaning, Expression.meaning, Schema.typedConstant_eq]
    decide +kernel
  rw [described] at stored
  rw [Option.some.inj stored, three] at answers
  exact ⟨nullable, keyed, select, q, h, answers⟩

end ResourceQuery
