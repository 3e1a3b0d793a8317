import ResourceQuery.Proofs.Compile.Conditions
import ResourceQuery.Proofs.Request.Meaning

/-!
# Joins that neither drop nor multiply rows

A filter joins only what its to-one paths lead to.  If no foreign key is required these are outer
joins, and if keys are unique each of them finds at most one row.  So every row of the table that a
query starts from is looked at exactly once, together with the row that each join leads to.

## Main Definitions

- `Compile.Chain`: joins that each follow a to-one relationship from a table joined before.
- `Sql.Binding.Settled`: each joined table shows the row that its join leads to.

## Main Statements

- `Compile.Walks.chain`, `Filter.Becomes.chain`: following a path extends the chain, and so does a
  filter.
- `Compile.Chain.exists_settled`: a chain of joins gives one binding, and it is settled.
- `Compile.Chain.length_found`: as many bindings meet a condition as rows do.
-/

namespace ResourceQuery

open Sql (Table Source Select Selector Entry Column Condition JoinOn TableAlias Remap Engine Row
  Database Binding)

/-! ### Chains of joins -/

namespace Compile

/-- **A chain of joins** that each follow a to-one relationship from a table joined before, under an
alias of their own. -/
inductive Chain (schema : Schema) (start : Table) : List Join → Prop
  | nil : Chain schema start []
  | snoc {joins : List Join} {source target : Table} {name : String} {relationship : Relationship}
      {key : ForeignKey} {outer inner : Column} (before : Chain schema start joins)
      (placed : source = start ∨ ∃ join ∈ joins, join.source = .table source)
      (stored : ∃ info, schema.Stores info source)
      (declared : schema.relationship source.resourceType name = .ok relationship)
      (toOne : relationship.isToOne = true)
      (connects : Connects schema source name target key outer inner)
      (apart : target.tableAlias ≠ start.tableAlias)
      (fresh : ∀ join ∈ joins, join.source.alias? ≠ some target.tableAlias) :
      Chain schema start (joins ++ [⟨.table target, ⟨joinKind key, outer, inner⟩⟩])

variable {schema : Schema} {start source target : Table} {p q : Progress}

theorem Reaches.chain {name : String} {relationship : Relationship}
    (reaches : Reaches schema p source name target q)
    (declared : schema.relationship source.resourceType name = .ok relationship)
    (toOne : relationship.isToOne = true) (fits : p.Fits schema (.table start))
    (known : p.draft.Knows schema (.table start) source) (unmoved : p.draft.remap = Remap.empty)
    (chain : Chain schema start p.draft.joins) : Chain schema start q.draft.joins := by
  cases reaches with
  | again => exact chain
  | anew connects fresh =>
    have new : ∀ s ∈ p.draft.sources (.table start), s.alias? ≠ some target.tableAlias := by
      intro s mem same
      have le := fits.bounded.sources s mem _ same
      rw [fresh] at le
      exact absurd le (Nat.not_succ_le_self _)
    refine .snoc chain ?_ known.stored declared toOne connects ?_ ?_
    · rcases known.placed with placed | ⟨enclosing, s, moved, -⟩
      · rcases List.mem_cons.mp placed with same | mem
        · cases same
          exact .inl rfl
        · obtain ⟨join, hjoin, same⟩ := List.mem_map.mp mem
          exact .inr ⟨join, hjoin, same⟩
      · rw [unmoved] at moved
        cases moved
    · intro same
      refine new (.table start) List.mem_cons_self ?_
      rw [same]
      rfl
    · intro join mem
      exact new join.source (List.mem_cons_of_mem _ (List.mem_map_of_mem mem))

/-- **Following a path extends the chain.** -/
theorem Walks.chain {path : Path} (walks : Walks schema p source path target q)
    (fits : p.Fits schema (.table start)) (known : p.draft.Knows schema (.table start) source)
    (unmoved : p.draft.remap = Remap.empty) (chain : Chain schema start p.draft.joins) :
    Chain schema start q.draft.joins := by
  induction walks with
  | arrived => exact chain
  | step declared toOne reaches walks ih =>
    obtain ⟨fits', known'⟩ := reaches.fits fits known
    exact ih fits' known' (reaches.quiet.remap.trans unmoved)
      (reaches.chain declared toOne fits known unmoved chain)

/-- The outer column of a join belongs to a table of the chain. -/
theorem Chain.outer_alias {joins : List Join} (chain : Chain schema start joins) {join : Join}
    (mem : join ∈ joins) :
    ∃ a, join.on.outer.alias? = some a
      ∧ (a = start.tableAlias ∨ ∃ other ∈ joins, other.source.alias? = some a) := by
  induction chain with
  | nil => cases mem
  | @snoc joins source target name relationship key outer inner before placed stored _ _ connects
      _ _ ih =>
    rcases List.mem_append.mp mem with mem | mem
    · obtain ⟨a, ha, listed⟩ := ih mem
      refine ⟨a, ha, listed.imp_right ?_⟩
      rintro ⟨other, hother, same⟩
      exact ⟨other, List.mem_append_left _ hother, same⟩
    · obtain rfl := List.mem_singleton.mp mem
      refine ⟨source.tableAlias, Sql.Table.alias?_of_mem_columns (connects.mem_columns stored).1, ?_⟩
      rcases placed with rfl | ⟨other, hother, same⟩
      · exact .inl rfl
      · refine .inr ⟨other, List.mem_append_left _ hother, ?_⟩
        rw [same]
        rfl

/-- No joined table has the alias of the table that a chain starts from. -/
theorem Chain.alias_ne {joins : List Join} (chain : Chain schema start joins) {join : Join}
    (mem : join ∈ joins) : join.source.alias? ≠ some start.tableAlias := by
  induction chain with
  | nil => cases mem
  | snoc _ _ _ _ _ _ apart _ ih =>
    rcases List.mem_append.mp mem with mem | mem
    · exact ih mem
    · obtain rfl := List.mem_singleton.mp mem
      exact fun same => apart (Option.some.inj same)

end Compile

/-! ### Filters extend chains -/

namespace Compile

variable {schema : Schema} {start table : Table} {p q : Progress}

theorem Pending.chain {e : Expression} {pending : PendingOperand}
    (side : Pending schema table p e pending q) (fits : p.Fits schema (.table start))
    (known : p.draft.Knows schema (.table start) table) (unmoved : p.draft.remap = Remap.empty)
    (chain : Chain schema start p.draft.joins) : Chain schema start q.draft.joins := by
  cases side with
  | field at_ =>
    obtain ⟨name, owner, -, walks, -⟩ := at_
    exact walks.chain fits known unmoved chain
  | count at_ =>
    obtain ⟨owner, name, r, target, key, outer, inner, many, -, -, -, rfl⟩ := at_
    exact many.2.1.chain fits known unmoved chain
  | constant => exact chain
  | nullConstant => exact chain
  | null => exact chain

theorem Compares.chain {kind : ComparisonKind} {left right : Expression} {condition : Condition}
    (compares : Compares schema table kind left right p condition q)
    (fits : p.Fits schema (.table start)) (known : p.draft.Knows schema (.table start) table)
    (unmoved : p.draft.remap = Remap.empty) (chain : Chain schema start p.draft.joins) :
    Chain schema start q.draft.joins := by
  obtain ⟨l, r, type, lo, ro, middle, last, parameters, hl, hr, -, -, -, -, -, rfl⟩ := compares
  exact hr.chain (hl.fits fits known) (fits.knows_extends hl.quiet.toExtends known)
    (hl.quiet.remap.trans unmoved) (hl.chain fits known unmoved chain)

end Compile

namespace Filter

variable {schema : Schema} {start : Table}

mutual

/-- **A filter extends the chain of joins.** -/
theorem Becomes.chain {table : Table} {p q : Progress} {condition : Condition} :
    (filter : Filter) → filter.Becomes schema table p condition q →
      p.Fits schema (.table start) → p.draft.Knows schema (.table start) table →
      p.draft.remap = Remap.empty → Compile.Chain schema start p.draft.joins →
      Compile.Chain schema start q.draft.joins
  | .comparison _ _ _, h, fits, known, unmoved, chain => by
    simp only [Becomes] at h
    exact h.chain fits known unmoved chain
  | .and terms, h, fits, known, unmoved, chain => by
    simp only [Becomes] at h
    obtain ⟨conditions, h, -⟩ := h
    exact AllBecome.chain terms h fits known unmoved chain
  | .or terms, h, fits, known, unmoved, chain => by
    simp only [Becomes] at h
    obtain ⟨conditions, h, -⟩ := h
    exact AllBecome.chain terms h fits known unmoved chain
  | .not term, h, fits, known, unmoved, chain => by
    simp only [Becomes] at h
    obtain ⟨inner, h, -⟩ := h
    exact Becomes.chain term h fits known unmoved chain
  | .textMatch _ _ _, h, fits, known, unmoved, chain => by
    simp only [Becomes] at h
    obtain ⟨c, info, ⟨name, owner, -, walks, -⟩, -⟩ := h
    exact walks.chain fits known unmoved chain
  | .any _ _, h, fits, known, unmoved, chain => by
    simp only [Becomes] at h
    obtain ⟨c, info, given, last, parameters, ⟨name, owner, -, walks, -⟩, -, -, rfl⟩ := h
    exact walks.chain fits known unmoved chain
  | .has _ _, h, fits, known, unmoved, chain => by
    simp only [Becomes] at h
    obtain ⟨owner, name, r, target, key, outer, inner, condition?, last, many, -, -, -, -, rfl⟩ := h
    exact many.2.1.chain fits known unmoved chain
  | .isType _ _, h, _, _, _, _ => by
    simp only [Becomes] at h

theorem AllBecome.chain {table : Table} {p q : Progress} {conditions : List Condition} :
    (terms : List Filter) → AllBecome schema table terms p conditions q →
      p.Fits schema (.table start) → p.draft.Knows schema (.table start) table →
      p.draft.remap = Remap.empty → Compile.Chain schema start p.draft.joins →
      Compile.Chain schema start q.draft.joins
  | [], h, _, _, _, chain => by
    simp only [AllBecome] at h
    rw [h.2]
    exact chain
  | term :: rest, h, fits, known, unmoved, chain => by
    simp only [AllBecome] at h
    obtain ⟨condition, others, middle, first, after, -⟩ := h
    have quiet := Becomes.quiet term first
    exact AllBecome.chain rest after (Becomes.fits term first fits known)
      (fits.knows_extends quiet.toExtends known) (quiet.remap.trans unmoved)
      (Becomes.chain term first fits known unmoved chain)

end

theorem OptionBecomes.chain {table : Table} {p q : Progress} {condition? : Option Condition}
    {filter? : Option Filter} (h : OptionBecomes schema table filter? p condition? q)
    (fits : p.Fits schema (.table start)) (known : p.draft.Knows schema (.table start) table)
    (unmoved : p.draft.remap = Remap.empty) (chain : Compile.Chain schema start p.draft.joins) :
    Compile.Chain schema start q.draft.joins := by
  cases filter? with
  | none =>
    simp only [OptionBecomes] at h
    rw [h.2]
    exact chain
  | some filter =>
    simp only [OptionBecomes] at h
    obtain ⟨condition, h, -⟩ := h
    exact Becomes.chain filter h fits known unmoved chain

end Filter

/-! ### One row at most -/

variable {e : Engine} {db : Database e}

/-- If no value occurs twice in a column, no more than one row has a given value in it. -/
theorem Sql.Engine.filter_same_eq {column : String} {rows : List (Row e)}
    (distinct : e.Distinct rows column) (v : Option e.Datum) :
    rows.filter (fun row => e.same v (row column))
      = (rows.find? (fun row => e.same v (row column))).toList := by
  induction rows with
  | nil => rfl
  | cons row rest ih =>
    obtain ⟨others, distinct⟩ := List.pairwise_cons.mp distinct
    cases hit : e.same v (row column) with
    | false =>
      rw [List.filter_cons_of_neg (by simp [hit]), List.find?_cons_of_neg (by simp [hit])]
      exact ih distinct
    | true =>
      have none_ : rest.filter (fun row => e.same v (row column)) = [] := by
        refine List.filter_eq_nil_iff.mpr fun other mem hit' => ?_
        have same := Sql.Engine.same_of_same hit hit'
        rw [others other mem] at same
        cases same
      rw [List.filter_cons_of_pos (by simp [hit]), List.find?_cons_of_pos (by simp [hit]), none_]
      rfl

/-- The columns that a relationship relates rows by, and the rows it leads to. -/
theorem Compile.Connects.relatedRows_eq {schema : Schema} {source target : Table} {name : String}
    {key : ForeignKey} {outer inner : Column}
    (connects : Connects schema source name target key outer inner)
    (stored : ∃ info, schema.Stores info source) (row : Row e) :
    schema.relatedRows db source.resourceType name row
      = (db target.name).filter (fun other => e.same (row outer.name) (other inner.name)) := by
  obtain ⟨relationship, hrel, htable⟩ := connects.leads
  obtain ⟨leads, -, targetInfo, stores⟩ := Schema.stores_of_table htable
  obtain ⟨sourceInfo, stored⟩ := stored
  obtain ⟨outer', -, inner', -, hcolumns, names⟩ :=
    keyColumns_ok connects.resolved hrel stored stores leads
  rw [connects.columns] at hcolumns
  cases hcolumns
  have described := stores.described
  rw [connects.resourceType_eq] at described
  simp only [Schema.relatedRows, connects.resolved, stored.described, described, ← names,
    stores.named]

/-- **A to-one relationship leads to at most one row.** -/
theorem Schema.Keyed.distinct {schema : Schema} (keyed : schema.Keyed db) {source target : Table}
    {name : String} {relationship : Relationship} {key : ForeignKey} {outer inner : Column}
    (stored : ∃ info, schema.Stores info source)
    (declared : schema.relationship source.resourceType name = .ok relationship)
    (toOne : relationship.isToOne = true)
    (connects : Compile.Connects schema source name target key outer inner) :
    e.Distinct (db target.name) inner.name := by
  obtain ⟨found, hrel, htable⟩ := connects.leads
  cases declared.symm.trans hrel
  obtain ⟨leads, -, targetInfo, stores⟩ := Schema.stores_of_table htable
  obtain ⟨sourceInfo, stored⟩ := stored
  obtain ⟨outer', -, inner', -, hcolumns, names⟩ :=
    Compile.keyColumns_ok connects.resolved hrel stored stores leads
  rw [connects.columns] at hcolumns
  cases hcolumns
  rw [stores.named]
  have described := stores.described
  cases howned : key.ownedBy with
  | left =>
    simp only [ForeignKey.columnNames, howned, Prod.mk.injEq] at names
    rw [names.2]
    exact keyed.identifiers (_, targetInfo) (Schema.mem_entries_of_resourceType described)
  | right =>
    simp only [ForeignKey.columnNames, howned, Prod.mk.injEq] at names
    obtain ⟨-, found', -, hfound, owned, placed, -⟩ := Schema.foreignKeyOf_ok connects.resolved
    cases hrel.symm.trans hfound
    rw [leads] at described
    rw [names.2, placed]
    refine keyed.pointers _ (Schema.mem_allRelationships hrel) toOne (owned.symm.trans howned)
      targetInfo ?_
    simp [described, Except.toOption]

/-! ### Settled bindings -/

/-- **Each joined table shows the row that its join leads to**, or nothing but nulls if there is
none. -/
def Sql.Binding.Settled (db : Database e) (joins : List Join) (b : Binding e) : Prop :=
  ∀ join ∈ joins, ∀ target, join.source = .table target →
    b target.tableAlias = ((db target.name).find? (fun row =>
      e.same (join.on.outer.value b) (row join.on.inner.name))).getD Row.null

theorem Sql.Binding.Settled.mono {joins more : List Join} {b : Binding e}
    (settled : b.Settled db more) (sub : joins ⊆ more) : b.Settled db joins :=
  fun join mem => settled join (sub mem)

/-- A binding that grows elsewhere gives a column the same value. -/
theorem Sql.Column.value_set {c : Column} {a o : TableAlias} (named : c.alias? = some o)
    (ne : a ≠ o) (b : Binding e) (row : Row e) : c.value (b.set (some a) row) = c.value b := by
  simp only [Column.value, named]
  rw [Binding.set_of_ne b row ne]

/-- A column of the row that a binding grows by has its value there. -/
theorem Sql.Column.value_set_self {c : Column} {a : TableAlias} (named : c.alias? = some a)
    (b : Binding e) (row : Row e) : c.value (b.set (some a) row) = row c.name := by
  simp only [Column.value, named, Binding.set_self]

/-- **An outer join that finds at most one row** keeps a binding, and extends it by that row. -/
theorem Sql.JoinOn.extend_left {on : JoinOn} {a o : TableAlias} {rows : List (Row e)}
    (left : on.kind = .left) (outer : on.outer.alias? = some o) (inner : on.inner.alias? = some a)
    (ne : a ≠ o) (distinct : e.Distinct rows on.inner.name) (b : Binding e) :
    JoinOn.extend (some on) (some a) rows b
      = [b.set (some a) ((rows.find? (fun row =>
          e.same (on.outer.value b) (row on.inner.name))).getD Row.null)] := by
  -- Both columns are looked up in the extended binding, but only the inner one is new there.
  have tested : ((fun c : Binding e => e.same (on.outer.value c) (on.inner.value c)) ∘
      b.set (some a)) = fun row => e.same (on.outer.value b) (row on.inner.name) := by
    funext row
    simp only [Function.comp, Column.value_set outer ne, Column.value_set_self inner]
  simp only [JoinOn.extend, left]
  rw [List.filter_map, tested, Engine.filter_same_eq distinct]
  cases rows.find? (fun row => e.same (on.outer.value b) (row on.inner.name)) with
  | none => rfl
  | some row => rfl

namespace Compile

variable {schema : Schema} {start : Table} {joins : List Join}

/-- **A chain of joins gives one binding, and it is settled.**  What else there is to look at stays
the same. -/
theorem Chain.exists_settled (chain : Chain schema start joins) (nullable : schema.KeysNullable)
    (keyed : schema.Keyed db) (selectorsOf : Source → List Selector) (around b : Binding e) :
    ∃ c, Entry.bindings db
        (joins.map (fun join => ⟨join.source, some join.on, selectorsOf join.source⟩)) around [b]
          = [c]
      ∧ c.Settled db joins
      ∧ ∀ a, (∀ join ∈ joins, join.source.alias? ≠ some a) → c a = b a := by
  induction chain with
  | nil => exact ⟨b, rfl, fun join mem => absurd mem List.not_mem_nil, fun a _ => rfl⟩
  | @snoc joins source target name relationship key outer inner before placed stored declared
      toOne connects apart fresh ih =>
    obtain ⟨c, hc, settled, others⟩ := ih
    obtain ⟨houter, hinner⟩ := connects.mem_columns stored
    have named := Sql.Table.alias?_of_mem_columns houter
    have ne : target.tableAlias ≠ source.tableAlias := by
      rcases placed with rfl | ⟨join, mem, same⟩
      · exact apart
      · intro same'
        refine fresh join mem ?_
        rw [same, same']
        rfl
    have left : joinKind key = .left := by
      have optional := nullable _ (Schema.mem_allRelationships declared) toOne key
        (by simp [connects.resolved, Except.toOption])
      simp [joinKind, optional]
    refine ⟨c.set (some target.tableAlias) (((db target.name).find? (fun row =>
      e.same (outer.value c) (row inner.name))).getD Row.null), ?_, ?_, ?_⟩
    · rw [List.map_append, List.map_singleton, Sql.Entry.bindings_concat, hc,
        List.flatMap_singleton]
      exact Sql.JoinOn.extend_left left named (Sql.Table.alias?_of_mem_columns hinner) ne
        (keyed.distinct stored declared toOne connects) c
    · -- Later rows are under other aliases, so earlier joins still lead to the same rows.
      intro join mem table htable
      rcases List.mem_append.mp mem with mem | mem
      · obtain ⟨o, ho, listed⟩ := before.outer_alias mem
        have ne' : target.tableAlias ≠ o := by
          rcases listed with rfl | ⟨other, hother, same⟩
          · exact apart
          · rintro rfl
            exact fresh other hother same
        have ne'' : target.tableAlias ≠ table.tableAlias := by
          intro same
          refine fresh join mem ?_
          rw [htable, same]
          rfl
        rw [Sql.Binding.set_of_ne _ _ ne'', settled join mem table htable]
        simp only [Sql.Column.value_set ho ne']
      · obtain rfl := List.mem_singleton.mp mem
        cases htable
        simp only [Sql.Binding.set_self, Sql.Column.value_set named ne]
    · intro a unlisted
      have ne' : target.tableAlias ≠ a := by
        rintro rfl
        exact unlisted _ (List.mem_append_right _ (List.mem_singleton_self _)) rfl
      rw [Sql.Binding.set_of_ne _ _ ne']
      exact others a fun join mem => unlisted join (List.mem_append_left _ mem)

/-- **As many bindings meet a condition as rows of the first table do**, if the condition holds of
the binding of a row just when it does of the row. -/
theorem Chain.length_found {d : Draft} (chain : Chain schema start d.joins)
    (nullable : schema.KeysNullable) (keyed : schema.Keyed db) (selectors : List Selector)
    (around : Binding e) {met : Binding e → Bool} {metRow : Row e → Bool}
    (agree : ∀ row c, c.Settled db d.joins → c start.tableAlias = row →
      (∀ a, a ≠ start.tableAlias → (∀ join ∈ d.joins, join.source.alias? ≠ some a) →
        c a = around a) →
      met c = metRow row) :
    ((Entry.bindings db (d.entries (.table start) selectors) around [around]).filter met).length
      = (db start.name).countP metRow := by
  have own : ∀ join ∈ d.joins, join.source.alias? ≠ some start.tableAlias :=
    fun join mem => chain.alias_ne mem
  rw [Draft.entries, Entry.bindings, List.flatMap_singleton, Sql.Entry.bindings_eq_flatMap]
  simp only [Source.rows, JoinOn.extend, List.flatMap_map]
  -- One row after the other: each gives exactly one binding.
  induction db start.name with
  | nil => rfl
  | cons row rest ih =>
    obtain ⟨c, hc, settled, others⟩ := chain.exists_settled nullable keyed d.selectorsOf around
      (around.set (some start.tableAlias) row)
    have shown : c start.tableAlias = row := by
      rw [others _ own, Sql.Binding.set_self]
    have same : met c = metRow row := by
      refine agree row c settled shown fun a ne unlisted => ?_
      rw [others a unlisted, Sql.Binding.set_of_ne _ _ ne.symm]
    have head : Entry.bindings db (d.joins.map (fun join =>
        ⟨join.source, some join.on, d.selectorsOf join.source⟩)) around
        [around.set (Source.table start).alias? row] = [c] := hc
    rw [List.flatMap_cons, head, List.filter_append, List.length_append, ih, List.countP_cons,
      ← same, Nat.add_comm]
    cases hmet : met c <;> simp [hmet]

end Compile

end ResourceQuery
