import ResourceQuery.Proofs.Compile.RowGroups

/-!
# What the sources of a query show

A source of a query shows the columns of one table, which it is or which it starts from.  So every
reference to the source can be traced back to a column of that table.

## Main Definitions

- `Column.root`: the column of a table that a reference comes from.
- `Source.base?`: the table that a source is made of.
- `Source.Shows`: a source shows the columns of a table.

## Main Statements

- `Source.Shows.forall₂_selectors`: what is selected from a source comes from its table.
- `Progress.Fits.led_of_shows`: so do references in the finished query.
- `Compile.RelatedAt.shows`: what a relationship leads to is shown by a joined source.
- `Compile.PrimaryPage.shows_finished`: a page shows the columns of its table.
-/

namespace ResourceQuery

open Sql (Table Source Select Selector Column OrderTerm TableAlias Remap)

/-! ### Columns -/

/-- The column of a table that a reference comes from, through all derived tables. -/
def Sql.Column.root : Column → Column
  | .inTable name kind alias? => .inTable name kind alias?
  | .inSelect inner _ _ => inner.root

/-- **A reference comes from a column of a table.** -/
def Sql.Column.ComesFrom (c : Column) (t : Table) (name : String) : Prop :=
  ∃ kind, c.root = .inTable name kind (some t.tableAlias)

/-- **The table that a source is made of**: itself, or the one that a derived table starts from. -/
def Sql.Source.base? : Source → Option Table
  | .table t => some t
  | .derived s =>
    match s.start? with
    | some (.table t) => some t
    | _ => none

/-- **A source shows the columns of a table**, under its own alias and with the names that they have
there. -/
structure Sql.Source.Shows (source : Source) (t : Table) : Prop where
  base : source.base? = some t
  finds : ∀ c ∈ t.columns, ∃ found, source.findColumn? c.name (some t.tableAlias) = some found
    ∧ found.alias? = source.alias? ∧ found.name = c.name ∧ found.ComesFrom t c.name

theorem Sql.Table.comesFrom_of_mem_columns {t : Table} {c : Column} (mem : c ∈ t.columns) :
    c.ComesFrom t c.name := by
  obtain ⟨kind, same⟩ := Table.eq_inTable_of_mem_columns mem
  refine ⟨kind, ?_⟩
  rw [same]
  rfl

/-- A table shows its own columns. -/
theorem Sql.Source.shows_table (t : Table) : (Source.table t).Shows t := by
  refine ⟨rfl, fun c mem => ?_⟩
  have stored : c.name ∈ t.scalars ∨ c.name ∈ t.foreignKeys := by
    rcases List.mem_append.mp mem with listed | listed
    · obtain ⟨name, hname, rfl⟩ := List.mem_map.mp listed
      exact .inl hname
    · obtain ⟨name, hname, rfl⟩ := List.mem_map.mp listed
      exact .inr hname
  obtain ⟨found, listed, got, named⟩ := Table.getColumn_of_mem stored
  have finds : t.findColumn? c.name = some found := by
    unfold Table.getColumn at got
    split at got
    · rename_i column hcolumn
      cases got
      exact hcolumn
    · cases got
  refine ⟨found, ?_, Table.alias?_of_mem_columns listed, named, ?_⟩
  · rw [Source.findColumn?, if_pos (by simp)]
    exact finds
  · rw [← named]
    exact Table.comesFrom_of_mem_columns listed

/-- A derived table shows the columns of the table that it starts from, if it selects them before
anything else. -/
theorem Sql.Source.shows_derived {t : Table} {s : Select} {more : List (Column × Option String)}
    (starts : s.start? = some (.table t))
    (selected : s.columnSelectors = t.columns.map (fun c => (c, none)) ++ more) :
    (Source.derived s).Shows t := by
  refine ⟨by simp only [Source.base?, starts], fun c mem => ?_⟩
  -- The first column of that name stands among those of the table, which are not renamed.
  have first : ((t.columns.map (fun c => (c, none))).find?
      (Select.provides c.name (some t.tableAlias))).isSome := by
    rw [List.find?_isSome]
    refine ⟨(c, none), List.mem_map_of_mem mem, ?_⟩
    obtain ⟨kind, hc⟩ := Table.eq_inTable_of_mem_columns mem
    exact (Select.provides_iff hc).mpr ⟨rfl, rfl⟩
  obtain ⟨found, hfound⟩ := Option.isSome_iff_exists.mp first
  obtain ⟨c', hc', rfl⟩ := List.mem_map.mp (List.mem_of_find?_eq_some hfound)
  have same : c'.name = c.name := by
    have provides := List.find?_some hfound
    obtain ⟨kind, inTable⟩ := Table.eq_inTable_of_mem_columns hc'
    exact ((Select.provides_iff inTable).mp provides).1
  refine ⟨s.expose (c', none), ?_, rfl, same, ?_⟩
  · rw [Source.findColumn?, Select.findColumn?, selected, List.find?_append, hfound]
    rfl
  · show c'.ComesFrom t c.name
    rw [← same]
    exact Table.comesFrom_of_mem_columns hc'

/-- A selector for a column of a table that a source shows. -/
def Sql.Selector.Selects (source : Source) (t : Table) (name : String) (selector : Selector) :
    Prop :=
  ∃ c, selector = .column c none ∧ c.alias? = source.alias? ∧ c.name = name ∧ c.ComesFrom t name

/-- **What is selected from a source comes from its table**, column by column. -/
theorem Sql.Source.Shows.forall₂_selectors {source : Source} {t : Table} {names : List String}
    {selectors : List Selector} (shows : source.Shows t)
    (stored : ∀ name ∈ names, name ∈ t.scalars)
    (h : Compile.columnSelectors t source names = .ok selectors) :
    List.Forall₂ (Selector.Selects source t) names selectors := by
  induction names generalizing selectors with
  | nil =>
    cases h
    exact .nil
  | cons name rest ih =>
    obtain ⟨listed, others⟩ := List.forall_mem_cons.mp stored
    have mem : t.scalar name ∈ t.columns := List.mem_append_left _ (List.mem_map_of_mem listed)
    obtain ⟨found, finds, aliased, named, comes⟩ := shows.finds _ mem
    have got : source.getColumn name (some t.tableAlias) = .ok found := by
      unfold Source.getColumn
      rw [show name = (t.scalar name).name from rfl, finds]
    simp only [Compile.columnSelectors, got] at h
    cases below : Compile.columnSelectors t source rest with
    | error e =>
      rw [below] at h
      cases h
    | ok columns =>
      rw [below] at h
      cases h
      exact .cons ⟨found, rfl, aliased, named, comes⟩ (ih others below)

/-- **A reference in the finished query comes from the column that it referred to**, and belongs to
the source that shows the table of the column. -/
theorem Progress.Fits.led_of_shows {schema : Schema} {start source : Source} {last : Progress}
    {t : Table} {c : Column} {a : TableAlias} (fits : last.Fits schema start)
    (mem : source ∈ last.draft.sources start) (shows : source.Shows t)
    (named : source.alias? = some a)
    (moved : source = .table t ∨ last.draft.remap.get? t.tableAlias = some a)
    (listed : c ∈ t.columns) :
    (last.draft.remap.led (last.draft.sources start) c).alias? = some a
      ∧ (last.draft.remap.led (last.draft.sources start) c).name = c.name
      ∧ (last.draft.remap.led (last.draft.sources start) c).ComesFrom t c.name := by
  have stale := Table.alias?_of_mem_columns listed
  rcases moved with rfl | moved
  · cases named
    rw [Remap.led_of_unmoved stale (fits.get?_of_mem mem rfl)]
    exact ⟨stale, rfl, Table.comesFrom_of_mem_columns listed⟩
  · obtain ⟨found, finds, aliased, own, comes⟩ := shows.finds c listed
    rw [Remap.led_of_moved fits.distinct mem named stale moved finds]
    exact ⟨aliased.trans named, own, comes⟩

/-! ### Joined sources and pages -/

namespace Compile

/-- **What a relationship leads to is shown by the source that was joined for it.** -/
theorem RelatedAt.shows {schema : Schema} {start provider : Source} {p q last : Progress}
    {source target : Table} {name : String} {filter? : Option Filter} {a : TableAlias}
    (h : RelatedAt schema p source name filter? target provider q) (fits : p.Fits schema start)
    (known : p.draft.Knows schema start source) (named : provider.alias? = some a)
    (grown : q.Extends last) :
    provider.Shows target
      ∧ (provider = .table target ∨ last.draft.remap.get? target.tableAlias = some a)
      ∧ ∃ key kind outer inner, Connects schema source name target key outer inner
        ∧ ⟨provider, ⟨kind, outer, inner⟩⟩ ∈ last.draft.joins := by
  obtain ⟨more, all, -⟩ := grown.joins
  cases filter? with
  | none =>
    obtain ⟨reaches, rfl⟩ := h
    obtain ⟨key, outer, inner, connects, joined⟩ := reaches.exists_join fits known
    refine ⟨Source.shows_table target, .inl rfl, key, joinKind key, outer, inner, connects, ?_⟩
    rw [all]
    exact List.mem_append_left _ joined
  | some filter =>
    obtain ⟨derived, filtered, rfl⟩ := h
    have fits' := filtered.fits fits known
    obtain ⟨key, outer, inner, condition?, inside, connects, fresh, below, rfl, rfl⟩ := filtered
    cases named
    have shows := @Source.shows_derived target
      { plainQuery target .columns inside.draft condition? with
        alias? := some ⟨inside.names.tables + 1⟩ } [] rfl (by
        rw [columnSelectors_columnsQuery (Filter.OptionBecomes.quiet _ below).selectors,
          List.append_nil])
    have moved : Remap.get? (p.draft.remap.insert target.tableAlias ⟨inside.names.tables + 1⟩)
        target.tableAlias = some ⟨inside.names.tables + 1⟩ := by
      rw [Sql.Remap.get?_insert, if_pos rfl]
    refine ⟨shows, .inr ?_, key, .left, outer, inner, connects, ?_⟩
    · rw [grown.remap target.tableAlias (fits'.moved _ _ moved).1]
      exact moved
    · rw [all]
      simp [Draft.addJoin]

/-- A page shows the columns of its table when it is used as a derived table. -/
theorem PrimaryPage.shows_finished (page : PrimaryPage) (a : TableAlias) :
    (Source.derived (page.finished a)).Shows page.table := by
  have first : (page.table.columns.map (fun c => Selector.column c none)).filterMap Select.columnOf?
      = page.table.columns.map (fun c => (c, none)) := by
    rw [List.filterMap_map]
    exact congrFun List.filterMap_eq_map page.table.columns
  have columns : (page.finished a).columnSelectors
      = page.table.columns.map (fun c => (c, none)) ++ (page.draft.joins.flatMap
        fun join => page.fullDraft.selectorsOf join.source).filterMap Select.columnOf? := by
    rw [Select.columnSelectors, PrimaryPage.selectors_finished, List.filterMap_append, first]
  exact Source.shows_derived rfl columns

end Compile

end ResourceQuery
