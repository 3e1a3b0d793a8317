import ResourceQuery.Proofs.Compile.Correctness
import ResourceQuery.Proofs.Sql.Arrangement

/-!
# The rows of a page

The joins of a page follow to-one relationships, so each binding of its query shows, beside a row of
the table, the rows that this row leads to.  A criterion of the page has there the value that the
sort element has on the row.

## Main Definitions

- `SortElement.value`: the value by which a sort element arranges a row.
- `Compile.FollowsOne`: a join follows a to-one relationship.
- `SortElement.Matches`: a criterion arranges a binding as a sort element arranges a row.

## Main Statements

- `Compile.Orders.followsOne`, `Compile.OuterOrders.followsOne`: sorts join nothing else.
- `Progress.Fits.joined_row`: a join that follows a to-one relationship shows the one row that the
  binding leads to.
- `Compile.PrimaryPage.Stands.exists_of_mem_rows`: where a row of a page comes from.
- `Compile.Orders.matches`: criteria have the values of their sort elements.
-/

namespace ResourceQuery

open Sql (Table Source Select Selector Entry Column Condition OrderTerm JoinOn TableAlias Remap
  Engine Row Database Binding)

/-- **The value by which a sort element arranges a row.** -/
def SortElement.value {e : Engine} (schema : Schema) (db : Database e) (resourceType : String)
    (row : Row e) (element : SortElement) : Option e.Datum :=
  match element.target with
  | .field path => schema.valueAt db resourceType path row
  | .count path => some (e.ofNumber (schema.rowsAt db resourceType path row).length)

/-! ### Joins that follow to-one relationships -/

namespace Compile

/-- **A join follows a to-one relationship**, away from a table of another alias. -/
def FollowsOne (schema : Schema) (join : Join) : Prop :=
  ∃ source target name relationship key outer inner,
    (∃ info, schema.Stores info source)
      ∧ schema.relationship source.resourceType name = .ok relationship
      ∧ relationship.isToOne = true
      ∧ Connects schema source name target key outer inner
      ∧ source.tableAlias ≠ target.tableAlias
      ∧ join = ⟨.table target, ⟨joinKind key, outer, inner⟩⟩

variable {schema : Schema} {start : Source} {p q : Progress} {table source target : Table}

/-- The joins of a chain follow to-one relationships. -/
theorem Chain.followsOne {joins : List Join} (chain : Chain schema table joins) :
    ∀ join ∈ joins, FollowsOne schema join := by
  induction chain with
  | nil => exact fun join mem => absurd mem List.not_mem_nil
  | @snoc joins source target name relationship key outer inner before placed stored declared
      toOne connects apart fresh ih =>
    intro join mem
    rcases List.mem_append.mp mem with mem | mem
    · exact ih join mem
    · obtain rfl := List.mem_singleton.mp mem
      refine ⟨source, target, name, relationship, key, outer, inner, stored, declared, toOne,
        connects, ?_, rfl⟩
      rcases placed with rfl | ⟨other, hother, same⟩
      · exact apart.symm
      · intro same'
        refine fresh other hother ?_
        rw [same, ← same']
        rfl

theorem Reaches.followsOne {name : String} {relationship : Relationship}
    (reaches : Reaches schema p source name target q)
    (declared : schema.relationship source.resourceType name = .ok relationship)
    (toOne : relationship.isToOne = true) (fits : p.Fits schema start)
    (known : p.draft.Knows schema start source)
    (follows : ∀ join ∈ p.draft.joins, FollowsOne schema join) :
    ∀ join ∈ q.draft.joins, FollowsOne schema join := by
  cases reaches with
  | again => exact follows
  | @anew _ _ key outer inner connects fresh =>
    intro join mem
    rcases List.mem_append.mp mem with mem | mem
    · exact follows join mem
    · obtain rfl := List.mem_singleton.mp mem
      refine ⟨source, target, name, relationship, key, outer, inner, known.stored, declared, toOne,
        connects, ?_, rfl⟩
      intro same
      have le := fits.alias_le_of_knows known
      rw [same, fresh] at le
      exact absurd le (Nat.not_succ_le_self _)

theorem Walks.followsOne {path : Path} (walks : Walks schema p source path target q)
    (fits : p.Fits schema start) (known : p.draft.Knows schema start source)
    (follows : ∀ join ∈ p.draft.joins, FollowsOne schema join) :
    ∀ join ∈ q.draft.joins, FollowsOne schema join := by
  induction walks with
  | arrived => exact follows
  | step declared toOne reaches walks ih =>
    obtain ⟨fits', known'⟩ := reaches.fits fits known
    exact ih fits' known' (reaches.followsOne declared toOne fits known follows)

end Compile

section Criteria

variable {schema : Schema} {start : Source} {p q : Progress} {table : Table}

open Compile (FollowsOne Orders OuterOrders)

theorem SortElement.Becomes.followsOne {element : SortElement} {term : OrderTerm}
    (h : element.Becomes schema table p term q) (fits : p.Fits schema start)
    (known : p.draft.Knows schema start table)
    (follows : ∀ join ∈ p.draft.joins, FollowsOne schema join) :
    ∀ join ∈ q.draft.joins, FollowsOne schema join := by
  unfold SortElement.Becomes at h
  split at h
  · obtain ⟨c, info, last, ⟨name, owner, -, walks, -⟩, -, rfl⟩ := h
    have joined := walks.followsOne fits known follows
    split
    · exact joined
    · unfold Draft.addSortColumn
      split
      · exact joined
      · exact joined
  · obtain ⟨select, ⟨owner, name, r, target, key, outer, inner, many, -, -, -, rfl⟩, -⟩ := h
    exact many.2.1.followsOne fits known follows

/-- **A sort joins only what to-one relationships lead to.** -/
theorem Compile.Orders.followsOne {sort : List SortElement} {terms : List OrderTerm}
    (h : Orders schema table sort p terms q) (fits : p.Fits schema start)
    (known : p.draft.Knows schema start table)
    (follows : ∀ join ∈ p.draft.joins, FollowsOne schema join) :
    ∀ join ∈ q.draft.joins, FollowsOne schema join := by
  induction sort generalizing p terms with
  | nil =>
    rw [h.2]
    exact follows
  | cons element rest ih =>
    obtain ⟨term, others, middle, first, after, -⟩ := h
    exact ih after (first.fits fits known).1 (fits.knows_extends first.quiet.toExtends known)
      (first.followsOne fits known follows)

/-- The criteria of the query around a page join nothing else either. -/
theorem Compile.OuterOrders.followsOne {terms outer : List OrderTerm} {sort : List SortElement}
    (h : OuterOrders schema table terms sort p outer q) (fits : p.Fits schema start)
    (known : p.draft.Knows schema start table)
    (follows : ∀ join ∈ p.draft.joins, FollowsOne schema join) :
    ∀ join ∈ q.draft.joins, FollowsOne schema join := by
  induction terms generalizing p outer sort with
  | nil =>
    rw [h.2]
    exact follows
  | cons term rest ih =>
    cases sort with
    | nil =>
      rw [h.2]
      exact follows
    | cons element sort =>
      obtain ⟨first, others, middle, hfirst, after, -⟩ := h
      split at hfirst
      · rw [hfirst.2] at after
        exact ih after fits known follows
      · exact ih after (SortElement.Becomes.fits hfirst fits known).1
          (fits.knows_extends hfirst.quiet.toExtends known)
          (SortElement.Becomes.followsOne hfirst fits known follows)

end Criteria

/-! ### The rows that joins show -/

section Joins

variable {schema : Schema} {start : Source} {p : Progress} {e : Engine} {db : Database e}
  {around : Binding e}

/-- **A join that finds at most one row** extends a binding by that row, or by nulls. -/
theorem Sql.JoinOn.eq_of_mem_extend {on : JoinOn} {a o : TableAlias} {rows : List (Row e)}
    (outer : on.outer.alias? = some o) (inner : on.inner.alias? = some a) (ne : a ≠ o)
    (distinct : e.Distinct rows on.inner.name) {b c : Binding e}
    (mem : c ∈ JoinOn.extend (some on) (some a) rows b) :
    c = b.set (some a) ((rows.find? (fun row =>
      e.same (on.outer.value b) (row on.inner.name))).getD Row.null) := by
  cases kind : on.kind with
  | left =>
    rw [JoinOn.extend_left kind outer inner ne distinct] at mem
    exact List.mem_singleton.mp mem
  | inner =>
    simp only [JoinOn.extend, kind] at mem
    obtain ⟨listed, matching⟩ := List.mem_filter.mp mem
    obtain ⟨row, hrow, rfl⟩ := List.mem_map.mp listed
    rw [Column.value_set outer ne, Column.value_set_self inner] at matching
    -- The row is the only one that the filter leaves, hence the one that is found.
    have found : row ∈ rows.filter (fun row => e.same (on.outer.value b) (row on.inner.name)) :=
      List.mem_filter.mpr ⟨hrow, matching⟩
    rw [Engine.filter_same_eq distinct, Option.mem_toList] at found
    rw [found]
    rfl

/-- A source that finds at most one row, and is joined among others, shows that row or nulls. -/
theorem Sql.Entry.joined_row {source : Source} {on : JoinOn} {selectors : List Selector}
    {earlier later : List Entry} {found : List (Binding e)} {a o : TableAlias} {b : Binding e}
    (named : source.alias? = some a) (outer : on.outer.alias? = some o)
    (inner : on.inner.alias? = some a) (ne : a ≠ o)
    (apart : ∀ entry ∈ later, entry.source.alias? ≠ some a ∧ entry.source.alias? ≠ some o)
    (distinct : e.Distinct (source.rows db around) on.inner.name)
    (mem : b ∈ Entry.bindings db (earlier ++ ⟨source, some on, selectors⟩ :: later) around found) :
    b a = ((source.rows db around).find? (fun row =>
      e.same (on.outer.value b) (row on.inner.name))).getD Row.null := by
  rw [Entry.bindings_append, Entry.bindings, named] at mem
  obtain ⟨c, hc, agree⟩ := Entry.eq_elsewhere mem
  obtain ⟨d, -, extended⟩ := List.mem_flatMap.mp hc
  have shown := Sql.JoinOn.eq_of_mem_extend outer inner ne distinct extended
  -- What is joined later changes neither side of the condition.
  have unchanged : on.outer.value b = on.outer.value d := by
    have value : on.outer.value b = on.outer.value c := by
      simp only [Column.value, outer]
      rw [agree o fun entry hentry => (apart entry hentry).2]
    rw [value, shown, Column.value_set outer ne]
  rw [agree a fun entry hentry => (apart entry hentry).1, unchanged, shown, Binding.set_self]

/-- The reference of a join leads to sources that are joined no later. -/
theorem Sql.Remap.ResolvesJoins.outer_resolves {m : Remap} {before : List Source}
    {earlier later : List Join} {join : Join}
    (resolves : m.ResolvesJoins before (earlier ++ join :: later)) :
    m.Resolves (before ++ earlier.map Join.source ++ [join.source]) join.on.outer := by
  induction earlier generalizing before with
  | nil =>
    rw [List.map_nil, List.append_nil]
    exact resolves.1
  | cons first rest ih =>
    have others := ih resolves.2.2
    rwa [List.append_assoc before, List.singleton_append, ← List.map_cons] at others

/-- A reference to another table does not lead to the joined one. -/
theorem Progress.Fits.led_alias_ne (fits : p.Fits schema start) {c : Column} {a : TableAlias}
    {target : Table} (resolves : p.draft.remap.Resolves (p.draft.sources start) c)
    (named : c.alias? = some a) (joined : .table target ∈ p.draft.sources start)
    (ne : a ≠ target.tableAlias) :
    (p.draft.remap.led (p.draft.sources start) c).alias? ≠ some target.tableAlias := by
  obtain ⟨a', ha', leads⟩ := resolves.led_alias fits.distinct
  cases named.symm.trans ha'
  rw [leads]
  cases hmove : p.draft.remap.get? a with
  | none => exact fun same => ne (Option.some.inj same)
  | some enclosing =>
    rintro ⟨rfl⟩
    obtain ⟨a', ha', provider, mem, provides⟩ := resolves
    cases named.symm.trans ha'
    simp only [hmove] at provides
    -- A table provides columns only for its own alias, and that has been moved away.
    cases fits.source_unique mem joined provides.1
    have absent : (Source.table target).findColumn? c.name (some a) = none := by
      simp [Source.findColumn?, ne]
    rw [absent] at provides
    cases provides.2

/-- What a join refers to is joined before it, and nothing that is joined after it has one of the
two aliases. -/
theorem Progress.Fits.joined_between (fits : p.Fits schema start) {earlier later : List Join}
    {join : Join} (split : p.draft.joins = earlier ++ join :: later) {target : Table}
    (joins : join.source = .table target) {a : TableAlias}
    (named : join.on.outer.alias? = some a) (ne : a ≠ target.tableAlias) :
    ∃ o, (p.draft.remap.led (p.draft.sources start) join.on.outer).alias? = some o
      ∧ target.tableAlias ≠ o
      ∧ ∀ other ∈ later, other.source.alias? ≠ some target.tableAlias
        ∧ other.source.alias? ≠ some o := by
  have sources : p.draft.sources start
      = (start :: earlier.map Join.source) ++ .table target :: later.map Join.source := by
    rw [Draft.sources, split, List.map_append, List.map_cons, joins, List.cons_append]
  have placed : .table target ∈ p.draft.sources start := by
    rw [sources]
    exact List.mem_append_right _ List.mem_cons_self
  have mem : join ∈ p.draft.joins := by
    rw [split]
    exact List.mem_append_right _ List.mem_cons_self
  have apart := fits.led_alias_ne (fits.resolves_join mem).1 named placed ne
  -- The reference leads to a source among those joined so far, which is not the joined one.
  have conditions := fits.conditions
  rw [split] at conditions
  have resolves := conditions.outer_resolves
  rw [joins] at resolves
  have before : [start] ++ earlier.map Join.source ++ [.table target] ⊆ p.draft.sources start := by
    rw [sources]
    intro s hs
    rcases List.mem_append.mp hs with first | last
    · exact List.mem_append_left _ first
    · rw [List.mem_singleton.mp last]
      exact List.mem_append_right _ List.mem_cons_self
  obtain ⟨provider, hprovider, isNamed, same, -⟩ := resolves.led_visible fits.distinct before
  obtain ⟨o, ho⟩ := Option.isSome_iff_exists.mp isNamed
  rw [ho] at same
  have ne' : target.tableAlias ≠ o := by
    rintro rfl
    exact apart same
  have first : provider ∈ start :: earlier.map Join.source := by
    rcases List.mem_append.mp hprovider with first | last
    · exact first
    · rw [List.mem_singleton.mp last] at ho
      exact absurd (Option.some.inj ho) ne'
  have distinct := fits.distinct
  rw [sources, List.map_append] at distinct
  obtain ⟨-, own, separate⟩ := List.nodup_append.mp distinct
  rw [List.map_cons, List.nodup_cons] at own
  refine ⟨o, same, ne', fun other hother => ?_⟩
  have listed : other.source.alias? ∈ (later.map Join.source).map Source.alias? :=
    List.mem_map_of_mem (List.mem_map_of_mem hother)
  refine ⟨fun taken => own.1 ?_, fun taken => ?_⟩
  · show some target.tableAlias ∈ _
    rw [← taken]
    exact listed
  · exact separate _ (List.mem_map_of_mem first) _ (.tail _ listed) (ho.trans taken.symm)

/-- **A join that follows a to-one relationship shows the one row that the binding leads to**, or
nulls if there is none. -/
theorem Progress.Fits.joined_row (fits : p.Fits schema start) (keyed : schema.Keyed db)
    {selectors : List Selector} {b : Binding e}
    (hb : b ∈ Entry.bindings db (p.draft.finishedEntries start selectors) around [around])
    {join : Join} (mem : join ∈ p.draft.joins) (follows : Compile.FollowsOne schema join)
    {target : Table} (joins : join.source = .table target) :
    b target.tableAlias = ((db target.name).find? (fun row =>
      e.same ((p.draft.remap.led (p.draft.sources start) join.on.outer).value b)
        (row join.on.inner.name))).getD Row.null := by
  obtain ⟨source, _, name, relationship, key, outer, inner, stored, declared, toOne, connects, ne,
    rfl⟩ := follows
  cases joins
  obtain ⟨houter, hinner⟩ := connects.mem_columns stored
  have innerNamed := Sql.Table.alias?_of_mem_columns hinner
  have placed : .table target ∈ p.draft.sources start :=
    List.mem_cons_of_mem _ (List.mem_map_of_mem mem)
  have innerLed : p.draft.remap.led (p.draft.sources start) inner = inner :=
    Sql.Remap.led_of_unmoved innerNamed (fits.get?_of_mem placed rfl)
  obtain ⟨earlier, later, split⟩ := List.append_of_mem mem
  obtain ⟨o, outerNamed, ne', apart⟩ :=
    fits.joined_between split rfl (Sql.Table.alias?_of_mem_columns houter) ne
  rw [Draft.finishedEntries, split, List.map_append, List.map_cons, ← List.cons_append,
    Sql.Remap.ledJoin, innerLed] at hb
  refine Sql.Entry.joined_row rfl outerNamed innerNamed ne' ?_
    (keyed.distinct stored declared toOne connects) hb
  intro entry hentry
  obtain ⟨other, hother, rfl⟩ := List.mem_map.mp hentry
  exact apart other hother

/-- The source that a query starts from shows one of its rows. -/
theorem Progress.Fits.start_row (fits : p.Fits schema start) {selectors : List Selector}
    {b : Binding e}
    (hb : b ∈ Entry.bindings db (p.draft.finishedEntries start selectors) around [around])
    {a : TableAlias} (named : start.alias? = some a) : b a ∈ start.rows db around := by
  refine Entry.start_mem named ?_ hb
  intro entry mem same
  obtain ⟨join, hjoin, rfl⟩ := List.mem_map.mp mem
  have distinct := fits.distinct
  rw [Draft.sources, List.map_cons, List.nodup_cons, named, ← same] at distinct
  exact distinct.1 (List.mem_map_of_mem (List.mem_map_of_mem hjoin))

end Joins

/-! ### Rows of a page -/

namespace Compile

section Pages

variable {schema : Schema} {page : PrimaryPage} {names : Names} {e : Engine} {db : Database e}
  {around : Binding e}

/-- A page selects nothing but columns. -/
theorem PrimaryPage.Stands.selectsColumns (stands : page.Stands schema names) (a : TableAlias) :
    (page.finished a).SelectsColumns := by
  intro selector mem
  rw [PrimaryPage.selectors_finished] at mem
  rcases List.mem_append.mp mem with own | joined
  · obtain ⟨c, -, rfl⟩ := List.mem_map.mp own
    exact ⟨c, none, rfl⟩
  · obtain ⟨join, -, listed⟩ := List.mem_flatMap.mp joined
    obtain ⟨c, rename?, selects, -⟩ :=
      stands.fits_fullDraft.selectorsOf_visible join.source selector listed
    exact ⟨c, rename?, selects⟩

/-- **Where a row of a page comes from**: a binding that shows a row of the table and the rows that
this one leads to.  The row of the page holds its columns. -/
theorem PrimaryPage.Stands.exists_of_mem_rows (stands : page.Stands schema names)
    (keyed : schema.Keyed db) (follows : ∀ join ∈ page.draft.joins, FollowsOne schema join)
    {a : TableAlias} {row : Row e}
    (mem : row ∈ (Source.derived (page.finished a)).rows db around) :
    ∃ b : Binding e, b.Settled db page.draft.joins
      ∧ b page.table.tableAlias ∈ db page.table.name
      ∧ ∀ selected ∈ (page.finished a).columnSelectors,
        row (selected.2.getD selected.1.name) = selected.1.value b := by
  have closed := stands.closed a
  simp only [Source.WellScoped] at closed
  obtain ⟨b, found, cells⟩ :=
    Sql.Source.exists_of_mem_rows (stands.selectsColumns a) closed.2.2 mem
  have unmoved : page.fullDraft.remap = Remap.empty := stands.unmoved
  have hb : b ∈ Entry.bindings db (page.fullDraft.finishedEntries (.table page.table)
      (page.table.columns.map (fun c => .column c none))) around [around] := by
    rw [Draft.finishedEntries_of_unmoved unmoved]
    exact (List.mem_filter.mp found).1
  refine ⟨b, ?_, stands.fits_fullDraft.start_row hb rfl, cells⟩
  intro join hjoin target joins
  have shown := stands.fits_fullDraft.joined_row keyed hb hjoin (follows join hjoin) joins
  simp only [unmoved, Remap.led_empty] at shown
  exact shown

end Pages

end Compile

/-! ### Values of criteria -/

section Values

open Compile (Orders relatedQuery)

variable {schema : Schema} {start : Source} {p q : Progress} {table : Table} {e : Engine}
  {db : Database e} {b : Binding e} {x : Row e}

/-- A query that counts related rows returns their number. -/
theorem Compile.value_relatedCount {target : Table} {outer inner : Column} {o : TableAlias}
    (named : outer.alias? = some o) (counted : inner ∈ target.columns)
    (ne : target.tableAlias ≠ o) (b : Binding e) :
    (Sql.OrderTarget.count (relatedQuery target .count Draft.empty none outer inner)).value db b
      = some (e.ofNumber ((db target.name).filter (fun row =>
          e.same (outer.value b) (row inner.name))).length) := by
  have answers : Select.answers db (relatedQuery target .count Draft.empty none outer inner) b
      = [[("count", some (e.ofNumber (foundIn db target .count Draft.empty
          (relatedQuery target .count Draft.empty none outer inner).filter? b).length))]] :=
    answers_count _
  have found : foundIn db target .count Draft.empty
      (relatedQuery target .count Draft.empty none outer inner).filter? b
        = ((db target.name).filter (fun row => e.same (outer.value b) (row inner.name))).map
          (b.set (some target.tableAlias)) := by
    rw [foundIn, Draft.entries, Draft.empty, List.map_nil, Entry.bindings, Entry.bindings,
      List.flatMap_singleton]
    show ((db target.name).map (b.set (some target.tableAlias))).filter _ = _
    rw [List.filter_map]
    congr 1
    refine List.filter_congr fun row _ => ?_
    rw [Function.comp_apply, isTrue_related, Sql.Column.value_set named ne,
      Sql.Column.value_set_self (Sql.Table.alias?_of_mem_columns counted)]
    exact Bool.and_true _
  rw [Sql.OrderTarget.value, answers, found, List.length_map]

/-- A criterion arranges a binding as a sort element arranges a row. -/
def SortElement.Matches (schema : Schema) (db : Database e) (resourceType : String) (x : Row e)
    (b : Binding e) (element : SortElement) (term : OrderTerm) : Prop :=
  term.target.value db b = element.value schema db resourceType x
    ∧ term.descending = element.descending

/-- **A criterion has the value of its sort element**, where the joined tables show the rows that
the row of the table leads to. -/
theorem SortElement.Becomes.matches {element : SortElement} {term : OrderTerm}
    (h : element.Becomes schema table p term q) (fits : p.Fits schema start)
    (known : p.draft.Knows schema start table) (settled : b.Settled db q.draft.joins)
    (shown : b table.tableAlias = x) :
    element.Matches schema db table.resourceType x b term := by
  unfold SortElement.Becomes at h
  split at h
  · rename_i path htarget
    obtain ⟨c, info, last, at_, rfl, rfl⟩ := h
    have settled' : b.Settled db last.draft.joins := by
      split at settled
      · exact settled
      · exact Compile.settled_of_quiet settled (.addSortColumn last c)
    refine ⟨?_, rfl⟩
    rw [Sql.OrderTarget.value, SortElement.value, htarget]
    exact (at_.value_eq fits known settled' shown).2
  · rename_i path htarget
    obtain ⟨select, ⟨owner, name, r, target, key, outer, inner, many, connects, named, rfl, rfl⟩,
      rfl⟩ := h
    obtain ⟨fits', known'⟩ := many.2.1.fits fits known
    obtain ⟨houter, hinner⟩ := connects.mem_columns known'.stored
    have ne : target.tableAlias ≠ owner.tableAlias := by
      intro same
      have le := fits'.alias_le_of_knows known'
      rw [← same, named] at le
      exact absurd le (Nat.not_succ_le_self _)
    refine ⟨?_, rfl⟩
    rw [Compile.value_relatedCount (Sql.Table.alias?_of_mem_columns houter) hinner ne,
      many.rows_eq connects fits known settled shown, SortElement.value, htarget]

/-- The criteria of a page have the values of its sort elements. -/
theorem Compile.Orders.matches {sort : List SortElement} {terms : List OrderTerm}
    (h : Orders schema table sort p terms q) (fits : p.Fits schema start)
    (known : p.draft.Knows schema start table) (settled : b.Settled db q.draft.joins)
    (shown : b table.tableAlias = x) :
    List.Forall₂ (SortElement.Matches schema db table.resourceType x b) sort terms := by
  induction sort generalizing p terms with
  | nil =>
    rw [h.1]
    exact .nil
  | cons element rest ih =>
    obtain ⟨term, others, middle, first, after, rfl⟩ := h
    refine .cons ?_ ?_
    · exact first.matches fits known (settled_of_quiet settled after.quiet) shown
    · exact ih after (first.fits fits known).1 (fits.knows_extends first.quiet.toExtends known)

/-- Criteria that match sort elements arrange a binding by the values of these. -/
theorem Sql.OrderTerm.keys_of_matches {resourceType : String} {sort : List SortElement}
    {terms : List OrderTerm}
    (h : List.Forall₂ (SortElement.Matches schema db resourceType x b) sort terms) :
    OrderTerm.keys db terms b = sort.map (fun element =>
      (element.value schema db resourceType x, element.descending)) := by
  induction h with
  | nil => rfl
  | @cons element term sort terms first _ ih =>
    obtain ⟨target, descending⟩ := term
    obtain ⟨value, direction⟩ := first
    rw [OrderTerm.keys, ih, List.map_cons, ← value, ← direction]

end Values

end ResourceQuery
