import ResourceQuery.Proofs.Compile.PageRows

/-!
# Rows of one resource

Related resources multiply the rows of a page, and the order of the query around the page begins
with the criteria of the request.  Criteria have the same values on all rows of a resource.  So rows
of one resource are next to each other unless another resource ties with it, which the criteria of a
request exclude if the identifier is among them.

## Main Definitions

- `Compile.PrimaryPage.opened`: a binding in which the tables inside a page show their rows again.

## Main Statements

- `Compile.PrimaryPage.Around.led_value`: what a reference has been redirected to has the value that
  the reference has inside the page.
- `Compile.PageAt.keys`: rows are arranged by the sort elements of the resource first.
- `Compile.PageAt.ties_of_between`: a row between two rows of one resource ties with it.
- `Request.rows_divided_by_ties`: only resources that tie with another one in all sort elements come
  between its rows.
-/

namespace ResourceQuery

open Sql (Table Source Select Selector Entry Column Condition OrderTerm TableAlias Remap Engine Row
  Database Binding)

/-- A column of a table is provided under its own name, for the table it belongs to. -/
theorem Sql.Select.provides_iff {name own : String} {kind : Sql.ColumnKind} {a : TableAlias}
    {alias? : Option TableAlias} {selected : Column × Option String}
    (inTable : selected.1 = .inTable own kind alias?) :
    Select.provides name (some a) selected = true ↔ own = name ∧ alias? = some a := by
  simp only [Select.provides, inTable, Column.name, Option.isNone_some, Bool.and_false,
    Column.refersTo, Column.isNamed, Column.alias?, Bool.false_or, Bool.and_eq_true]
  exact and_congr decide_eq_true_iff decide_eq_true_iff

namespace Compile

/-! ### Looking into the page -/

/-- A binding of the query around a page in which the tables inside the page show their rows
again. -/
def PrimaryPage.opened {e : Engine} (page : PrimaryPage) (inside b : Binding e) : Binding e :=
  fun a => if a ∈ page.table.tableAlias :: page.draft.joinAliases then inside a else b a

/-- **A query around a page**: what has been joined for the criteria of the page, and what has been
joined when the query is complete. -/
structure PrimaryPage.Around (schema : Schema) (page : PrimaryPage) (names : Names)
    (sorted last : Progress) : Prop where
  stands : page.Stands schema names
  follows : ∀ join ∈ page.draft.joins, FollowsOne schema join
  sortedFits : sorted.Fits schema (.derived (page.finished ⟨names.tables + 1⟩))
  moved : sorted.draft.remap = (page.outerDraft ⟨names.tables + 1⟩).remap
  sortedFollows : ∀ join ∈ sorted.draft.joins, FollowsOne schema join
  grown : sorted.Extends last
  lastFits : last.Fits schema (.derived (page.finished ⟨names.tables + 1⟩))

namespace PrimaryPage.Around

variable {schema : Schema} {page : PrimaryPage} {names : Names} {sorted last : Progress}
  {e : Engine} {db : Database e} {inside b : Binding e}

/-- The tables of the page have been moved into the derived table, and nothing else has. -/
theorem get?_moved (around : page.Around schema names sorted last) (a : TableAlias) :
    sorted.draft.remap.get? a = if a ∈ page.table.tableAlias :: page.draft.joinAliases
      then some ⟨names.tables + 1⟩ else none := by
  obtain ⟨m, hm, get⟩ := page.outerDraft_eq ⟨names.tables + 1⟩
  rw [around.moved, hm]
  exact get a

/-- What was moved into the page stays there. -/
theorem get?_last (around : page.Around schema names sorted last) {a : TableAlias}
    (listed : a ∈ page.table.tableAlias :: page.draft.joinAliases) :
    last.draft.remap.get? a = some ⟨names.tables + 1⟩ := by
  have moved : sorted.draft.remap.get? a = some ⟨names.tables + 1⟩ := by
    rw [around.get?_moved, if_pos listed]
  rw [around.grown.remap a (around.sortedFits.moved a _ moved).1, moved]

/-- The sources of a page are tables. -/
theorem source_table (around : page.Around schema names sorted last) {source : Source}
    (mem : source ∈ page.draft.sources (.table page.table)) :
    ∃ t info, source = .table t ∧ schema.Stores info t := by
  rcases List.mem_cons.mp mem with rfl | joined
  · obtain ⟨info, stores⟩ := around.stands.stored
    exact ⟨page.table, info, rfl, stores⟩
  · obtain ⟨join, hjoin, rfl⟩ := List.mem_map.mp joined
    obtain ⟨_, target, _, _, _, _, _, -, -, -, connects, -, rfl⟩ := around.follows join hjoin
    obtain ⟨info, stores⟩ := connects.stored
    exact ⟨target, info, rfl, stores⟩

/-- The columns of a page are columns of tables. -/
theorem eq_inTable (around : page.Around schema names sorted last) {a : TableAlias}
    {selected : Column × Option String} (mem : selected ∈ (page.finished a).columnSelectors) :
    ∃ name kind alias?, selected.1 = .inTable name kind alias? := by
  rw [Select.columnSelectors, selectors_finished] at mem
  obtain ⟨selector, listed, selects⟩ := List.mem_filterMap.mp mem
  rcases List.mem_append.mp listed with own | joined
  · obtain ⟨c, hc, rfl⟩ := List.mem_map.mp own
    cases selects
    obtain ⟨kind, hkind⟩ := Sql.Table.eq_inTable_of_mem_columns hc
    exact ⟨_, _, _, hkind⟩
  · obtain ⟨join, hjoin, listed⟩ := List.mem_flatMap.mp joined
    obtain ⟨c, rename?, rfl, source, hsource, -, -, exposes⟩ :=
      around.stands.fits_fullDraft.selectorsOf_visible join.source selector listed
    cases selects
    obtain ⟨t, -, rfl, -⟩ := around.source_table hsource
    obtain ⟨kind, hkind⟩ := Sql.Table.eq_inTable_of_mem_columns exposes
    exact ⟨_, _, _, hkind⟩

/-- **What a reference has been redirected to has the value that the reference has inside the
page.** -/
theorem led_value (around : page.Around schema names sorted last)
    (cells : ∀ selected ∈ (page.finished ⟨names.tables + 1⟩).columnSelectors,
      b ⟨names.tables + 1⟩ (selected.2.getD selected.1.name) = selected.1.value inside)
    {c : Column} (resolves : sorted.draft.remap.Resolves
      (sorted.draft.sources (.derived (page.finished ⟨names.tables + 1⟩))) c) :
    (last.draft.remap.led
        (last.draft.sources (.derived (page.finished ⟨names.tables + 1⟩))) c).value b
      = c.value (page.opened inside b) := by
  obtain ⟨a, ha, source, mem, leads⟩ := resolves
  have value : c.value (page.opened inside b) = page.opened inside b a c.name := by
    simp only [Column.value, ha]
  by_cases listed : a ∈ page.table.tableAlias :: page.draft.joinAliases
  · have moved : sorted.draft.remap.get? a = some ⟨names.tables + 1⟩ := by
      rw [around.get?_moved, if_pos listed]
    rw [moved] at leads
    obtain ⟨named, provided⟩ := leads
    obtain rfl := around.sortedFits.source_unique mem List.mem_cons_self named
    obtain ⟨found, hfound⟩ := Option.isSome_iff_exists.mp provided
    rw [Remap.led_of_moved around.lastFits.distinct List.mem_cons_self rfl ha
      (around.get?_last listed) hfound, value, PrimaryPage.opened, if_pos listed]
    -- The page provides the column that it has selected from the table of that alias.
    simp only [Source.findColumn?, Select.findColumn?, Option.map_eq_some_iff] at hfound
    obtain ⟨selected, hselected, rfl⟩ := hfound
    have provides := List.find?_some hselected
    have hmem := List.mem_of_find?_eq_some hselected
    obtain ⟨name, kind, alias?, inTable⟩ := around.eq_inTable hmem
    have same : name = c.name ∧ alias? = some a := (Select.provides_iff inTable).mp provides
    have cell := cells selected hmem
    simp only [Column.value, inTable, Column.alias?, Column.name, same.2] at cell
    rw [← same.1, ← cell]
    simp only [Column.value, Select.expose, Column.alias?, Column.name, inTable]
    rfl
  · have unmoved : sorted.draft.remap.get? a = none := by
      rw [around.get?_moved, if_neg listed]
    rw [unmoved] at leads
    have unmoved' : last.draft.remap.get? a = none := by
      rw [around.grown.remap a (around.sortedFits.bounded.sources source mem a leads.1), unmoved]
    rw [Remap.led_of_unmoved ha unmoved', value, PrimaryPage.opened, if_neg listed]
    simp only [Column.value, ha]

/-- The tables joined for the criteria show the rows that the opened binding leads to. -/
theorem opened_settled (around : page.Around schema names sorted last) (keyed : schema.Keyed db)
    (cells : ∀ selected ∈ (page.finished ⟨names.tables + 1⟩).columnSelectors,
      b ⟨names.tables + 1⟩ (selected.2.getD selected.1.name) = selected.1.value inside)
    {selectors : List Selector}
    (hb : b ∈ Entry.bindings db (last.draft.finishedEntries
      (.derived (page.finished ⟨names.tables + 1⟩)) selectors) Binding.empty [Binding.empty]) :
    (page.opened inside b).Settled db sorted.draft.joins := by
  intro join mem target joins
  have mem' : join ∈ last.draft.joins := by
    obtain ⟨more, hmore, -⟩ := around.grown.joins
    rw [hmore]
    exact List.mem_append_left _ mem
  have outside : target.tableAlias ∉ page.table.tableAlias :: page.draft.joinAliases := by
    intro listed
    have placed : join.source ∈ sorted.draft.sources
        (.derived (page.finished ⟨names.tables + 1⟩)) :=
      List.mem_cons_of_mem _ (List.mem_map_of_mem mem)
    have unmoved := around.sortedFits.get?_of_mem placed (by rw [joins]; rfl)
    rw [around.get?_moved, if_pos listed] at unmoved
    cases unmoved
  rw [PrimaryPage.opened, if_neg outside,
    around.lastFits.joined_row keyed hb mem' (around.sortedFollows join mem) joins,
    around.led_value cells (around.sortedFits.resolves_join mem).1]

/-- **What a criterion has become has the value that the criterion has inside the page.** -/
theorem settles_value (around : page.Around schema names sorted last)
    (cells : ∀ selected ∈ (page.finished ⟨names.tables + 1⟩).columnSelectors,
      b ⟨names.tables + 1⟩ (selected.2.getD selected.1.name) = selected.1.value inside)
    {term settled : OrderTerm}
    (leads : sorted.Leads (.derived (page.finished ⟨names.tables + 1⟩)) term)
    (settles : term.Settles last.draft.remap
      (last.draft.sources (.derived (page.finished ⟨names.tables + 1⟩))) settled) :
    settled.target.value db b = term.target.value db (page.opened inside b)
      ∧ settled.descending = term.descending := by
  have later := leads.extends_ around.sortedFits around.grown
  cases leads with
  | column resolves =>
    cases settles
    exact ⟨around.led_value cells resolves, rfl⟩
  | @count target outer inner descending resolves counted taken unmoved apart =>
    cases settles with
    | count =>
      refine ⟨?_, rfl⟩
      -- Neither reference is captured by the table that is counted.
      have inner_apart : ∃ a, outer.alias? = some a ∧ target.tableAlias ≠ a := by
        obtain ⟨a, ha, source, mem, provides⟩ := resolves
        refine ⟨a, ha, ?_⟩
        rintro rfl
        rw [unmoved] at provides
        exact apart source mem provides.1
      have outer_apart : ∃ o, (last.draft.remap.led (last.draft.sources
          (.derived (page.finished ⟨names.tables + 1⟩))) outer).alias? = some o
          ∧ target.tableAlias ≠ o := by
        cases later with
        | count resolves' _ _ _ apart' =>
          obtain ⟨source, mem, isNamed, same, -⟩ :=
            resolves'.led_visible around.lastFits.distinct (List.Subset.refl _)
          obtain ⟨o, ho⟩ := Option.isSome_iff_exists.mp isNamed
          refine ⟨o, same.trans ho, ?_⟩
          rintro rfl
          exact apart' source mem ho
      obtain ⟨a, named, ne⟩ := inner_apart
      obtain ⟨o, named', ne'⟩ := outer_apart
      rw [value_relatedCount named' counted ne', value_relatedCount named counted ne,
        around.led_value cells resolves]

/-- What criteria have become matches the sort elements that the criteria match inside the page. -/
theorem matches_settled (around : page.Around schema names sorted last)
    (cells : ∀ selected ∈ (page.finished ⟨names.tables + 1⟩).columnSelectors,
      b ⟨names.tables + 1⟩ (selected.2.getD selected.1.name) = selected.1.value inside)
    {resourceType : String} {x : Row e} {sort : List SortElement} {terms settled : List OrderTerm}
    (leads : ∀ term ∈ terms, sorted.Leads (.derived (page.finished ⟨names.tables + 1⟩)) term)
    (h : List.Forall₂ (SortElement.Matches schema db resourceType x (page.opened inside b)) sort
      terms)
    (settles : List.Forall₂ (OrderTerm.Settles last.draft.remap
      (last.draft.sources (.derived (page.finished ⟨names.tables + 1⟩)))) terms settled) :
    List.Forall₂ (SortElement.Matches schema db resourceType x b) sort settled := by
  induction h generalizing settled with
  | nil =>
    cases settles
    exact .nil
  | cons first _ ih =>
    cases settles with
    | cons settle others =>
      obtain ⟨value, direction⟩ := around.settles_value cells (leads _ List.mem_cons_self) settle
      refine .cons ⟨value.trans first.1, direction.trans first.2⟩ ?_
      exact ih (fun term mem => leads term (List.mem_cons_of_mem _ mem)) others

end PrimaryPage.Around

/-! ### Keys of rows -/

section Keys

variable {schema : Schema} {start : Source} {p q : Progress} {table : Table} {e : Engine}
  {db : Database e} {inside b : Binding e} {x : Row e}

/-- **The criteria of the query around a page match the sort elements**, if those by column keep the
values that they have in the page. -/
theorem OuterOrders.matches {terms outer : List OrderTerm} {sort : List SortElement}
    (h : OuterOrders schema table terms sort p outer q) (fits : p.Fits schema start)
    (known : p.draft.Knows schema start table) (settled : b.Settled db q.draft.joins)
    (shown : b table.tableAlias = x)
    (kept : ∀ c descending, ⟨.column c, descending⟩ ∈ terms → c.value b = c.value inside)
    (page : List.Forall₂ (SortElement.Matches schema db table.resourceType x inside) sort terms) :
    List.Forall₂ (SortElement.Matches schema db table.resourceType x b) sort outer := by
  induction page generalizing p outer with
  | nil =>
    rw [h.1]
    exact .nil
  | @cons element term sort terms first _ ih =>
    obtain ⟨criterion, others, middle, hfirst, after, rfl⟩ := h
    have kept' : ∀ c descending, ⟨.column c, descending⟩ ∈ terms → c.value b = c.value inside :=
      fun c descending mem => kept c descending (List.mem_cons_of_mem _ mem)
    obtain ⟨target, descending⟩ := term
    cases target with
    | column c =>
      obtain ⟨rfl, rfl⟩ := hfirst
      refine .cons ⟨?_, first.2⟩ (ih after fits known kept')
      exact (kept c descending List.mem_cons_self).trans first.1
    | count select =>
      have grown : p.Extends middle := hfirst.quiet.toExtends
      refine .cons ?_ (ih after (SortElement.Becomes.fits hfirst fits known).1
        (fits.knows_extends grown known) kept')
      exact SortElement.Becomes.matches hfirst fits known (settled_of_quiet settled after.quiet)
        shown

theorem optionKeys_orderOf (terms : List OrderTerm) (b : Binding e) :
    OrderTerm.optionKeys db (orderOf terms) b = OrderTerm.keys db terms b := by
  cases terms with
  | nil => rfl
  | cons term rest => rfl

/-- A criterion by column of a page belongs to one of the tables of the page. -/
theorem PrimaryPage.Stands.term_source {page : PrimaryPage} {names : Names}
    (stands : page.Stands schema names) {c : Column} {descending : Bool}
    (mem : ⟨.column c, descending⟩ ∈ page.terms) :
    ∃ a source, c.alias? = some a ∧ a ∈ page.table.tableAlias :: page.draft.joinAliases
      ∧ source ∈ page.draft.sources (.table page.table) ∧ source.alias? = some a
      ∧ source.Exposes c := by
  cases stands.leads _ mem with
  | column resolves =>
    obtain ⟨a, ha, source, hsource, leads⟩ := resolves
    rw [stands.unmoved] at leads
    refine ⟨a, source, ha, ?_, hsource, leads⟩
    rcases List.mem_cons.mp hsource with rfl | joined
    · cases leads.1
      exact List.mem_cons_self
    · obtain ⟨join, hjoin, rfl⟩ := List.mem_map.mp joined
      exact List.mem_cons_of_mem _ (PrimaryPage.mem_joinAliases.mpr ⟨join, hjoin, leads.1⟩)

/-- A criterion by column of a page has in the opened binding the value that it has in the page. -/
theorem PrimaryPage.Stands.opened_value {page : PrimaryPage} {names : Names}
    (stands : page.Stands schema names) {c : Column} {descending : Bool}
    (mem : ⟨.column c, descending⟩ ∈ page.terms) (inside b : Binding e) :
    c.value (page.opened inside b) = c.value inside := by
  obtain ⟨a, _, ha, listed, -⟩ := stands.term_source mem
  simp only [Column.value, ha]
  rw [PrimaryPage.opened, if_pos listed]

/-- What has been joined around a complete page. -/
theorem OuterOrders.around {page : PrimaryPage} {names : Names} {parameters : Nat} {fetch : Fetch}
    {sort : List SortElement} {outer below : List OrderTerm} {sorted last : Progress}
    (h : OuterOrders schema page.table page.terms sort
      ⟨⟨names.tables + 1, parameters⟩, page.outerDraft ⟨names.tables + 1⟩⟩ outer sorted)
    (followed : fetch.Becomes schema page.table sorted below last)
    (stands : page.Stands schema names)
    (follows : ∀ join ∈ page.draft.joins, FollowsOne schema join) :
    page.Around schema names sorted last
      ∧ ∀ term ∈ outer, sorted.Leads (.derived (page.finished ⟨names.tables + 1⟩)) term := by
  have fits := stands.outer_fits parameters
  have known := stands.outer_knows ⟨names.tables + 1⟩
  obtain ⟨sortedFits, leads⟩ := h.fits fits known
    (fun c descending => stands.outer_resolves ⟨names.tables + 1⟩)
  obtain ⟨grown, lastFits, -⟩ := Fetch.Becomes.grows fetch followed sortedFits
    (fits.knows_extends h.quiet.toExtends known)
  obtain ⟨m, hm, -⟩ := page.outerDraft_eq ⟨names.tables + 1⟩
  have unjoined : ∀ join ∈ (page.outerDraft ⟨names.tables + 1⟩).joins,
      FollowsOne schema join := by
    rw [hm]
    exact fun join mem => absurd mem List.not_mem_nil
  refine ⟨?_, leads⟩
  exact
    { stands, follows, sortedFits, grown, lastFits
      moved := h.quiet.remap
      sortedFollows := h.followsOne fits known unjoined }

/-- **The rows of a query around a page are arranged by the sort elements of the resource first**:
each stems from a row of the table, whose columns the page shows, and the keys of the binding begin
with the values of this row. -/
theorem PageAt.keys {info : ResourceType} {names : Names} {fetch : Fetch}
    {sort : List SortElement} {select : Select}
    (h : PageAt schema table fetch sort ⟨names, Draft.empty⟩ select)
    (stores : schema.Stores info table) (le : table.tableAlias.index ≤ names.tables)
    (multiplies : fetch.reachesToMany schema table.resourceType = .ok true)
    (keyed : schema.Keyed db) :
    ∃ page root, select.start? = some (.derived page) ∧ page.alias? = some root
      ∧ ∀ b ∈ select.found db Binding.empty, ∃ x ∈ db table.name,
        (∀ c ∈ table.columns, b root c.name = x c.name)
        ∧ ∃ more, OrderTerm.optionKeys db select.order? b = sort.map (fun element =>
          (element.value schema db table.resourceType x, element.descending)) ++ more := by
  obtain ⟨condition?, terms, limit, q, r, parameters, restricts, orders, ⟨-, pushed⟩
    | ⟨_, _, _, _, single, -⟩⟩ := h
  swap
  · rw [multiplies] at single
    cases single
  have started : Draft.empty.Knows schema (.table table) table := Draft.knows_start stores
  have fits := restricts.fits (.ofTable le) started
  have known : q.draft.Knows schema (.table table) table := Draft.knows_start stores
  have stands := PrimaryPage.stands stores le restricts orders limit parameters
  have chain := restricts.chain (.ofTable le) started rfl .nil
  have follows := orders.followsOne fits known chain.followsOne
  obtain ⟨parameters', outer, columns, below, sorted, last, settled, outerOrders, -, followed,
    settles, rfl⟩ := pushed
  obtain ⟨around, leads⟩ := outerOrders.around followed stands follows
  refine ⟨_, ⟨r.names.tables + 1⟩, rfl, rfl, fun b found => ?_⟩
  have hb := (List.mem_filter.mp found).1
  obtain ⟨inside, insideSettled, stored, cells⟩ :=
    stands.exists_of_mem_rows keyed follows (around.lastFits.start_row hb rfl)
  refine ⟨inside table.tableAlias, stored, fun c mem => ?_, ?_⟩
  · have cell := cells (c, none) (PrimaryPage.mem_columnSelectors_of_table _ _ mem)
    simpa only [Option.getD_none, Column.value, Sql.Table.alias?_of_mem_columns mem] using cell
  · have ownSettles : List.Forall₂ (OrderTerm.Settles last.draft.remap
        (last.draft.sources _)) outer (settled.take outer.length) :=
      (List.forall₂_take_append settled outer below settles.flip).flip
    have inPage := orders.matches fits known insideSettled rfl
    have matched := outerOrders.matches (stands.outer_fits parameters')
      (stands.outer_knows ⟨r.names.tables + 1⟩) (around.opened_settled keyed cells hb)
      (if_pos List.mem_cons_self) (fun c descending mem => stands.opened_value mem inside b) inPage
    obtain ⟨others, parts⟩ : ∃ others, settled = settled.take outer.length ++ others :=
      ⟨_, (List.take_append_drop outer.length settled).symm⟩
    refine ⟨OrderTerm.keys db others b, ?_⟩
    show OrderTerm.optionKeys db (orderOf settled) b = _
    rw [optionKeys_orderOf, parts, OrderTerm.keys_append,
      Sql.OrderTerm.keys_of_matches (around.matches_settled cells leads matched ownSettles)]

end Keys

end Compile

/-! ### Identifiers -/

section Identifiers

variable {schema : Schema} {start : Source} {p q : Progress} {table : Table} {e : Engine}
  {db : Database e}

/-- If no value occurs twice in a column, rows of one value are one row. -/
theorem Sql.Engine.Distinct.eq_of_same {rows : List (Row e)} {column : String}
    (distinct : e.Distinct rows column) {x y : Row e} (hx : x ∈ rows) (hy : y ∈ rows)
    (same : e.same (x column) (y column) = true) : x = y := by
  have reverse : e.same (y column) (x column) = true := by rwa [Sql.Engine.same_comm]
  have first : x ∈ rows.filter (fun row => e.same (x column) (row column)) :=
    List.mem_filter.mpr ⟨hx, Sql.Engine.same_of_same reverse reverse⟩
  have second : y ∈ rows.filter (fun row => e.same (x column) (row column)) :=
    List.mem_filter.mpr ⟨hy, same⟩
  rw [Sql.Engine.filter_same_eq distinct, Option.mem_toList] at first second
  exact Option.some.inj (first.symm.trans second)

/-- **A row between two rows of one resource belongs to a resource that ties with it** in all sort
elements. -/
theorem Compile.PageAt.ties_of_between {info : ResourceType} {names : Names} {fetch : Fetch}
    {sort : List SortElement} {select : Select}
    (h : PageAt schema table fetch sort ⟨names, Draft.empty⟩ select)
    (stores : schema.Stores info table) (le : table.tableAlias.index ≤ names.tables)
    (multiplies : fetch.reachesToMany schema table.resourceType = .ok true)
    (keyed : schema.Keyed db) :
    ∃ page root, select.start? = some (.derived page) ∧ page.alias? = some root
      ∧ ∀ rows, select.Arranged db rows → ∀ b c d, [b, c, d].Sublist rows →
        e.same (b root info.idColumn) (d root info.idColumn) = true →
        ∃ x ∈ db info.tableName, ∃ y ∈ db info.tableName,
          x info.idColumn = b root info.idColumn ∧ y info.idColumn = c root info.idColumn
          ∧ ∀ element ∈ sort, e.ties (element.value schema db table.resourceType x)
            (element.value schema db table.resourceType y) = true := by
  obtain ⟨page, root, starts, aliased, keys⟩ := h.keys stores le multiplies keyed
  refine ⟨page, root, starts, aliased, fun rows arranged b c d sub same => ?_⟩
  have found : ∀ r ∈ [b, c, d], r ∈ select.found db Binding.empty :=
    fun r mem => arranged.complete.mem_iff.mp (sub.subset mem)
  obtain ⟨x, hx, xColumns, xMore, xKeys⟩ := keys b (found b (by simp))
  obtain ⟨y, hy, yColumns, yMore, yKeys⟩ := keys c (found c (by simp))
  obtain ⟨z, hz, zColumns, zMore, zKeys⟩ := keys d (found d (by simp))
  rw [stores.named] at hx hy hz
  obtain ⟨idColumn, hid, -, idName⟩ := stores.idColumn_ok
  have xId := xColumns idColumn hid
  have yId := yColumns idColumn hid
  have zId := zColumns idColumn hid
  rw [idName] at xId yId zId
  -- The two rows stem from one row of the table, so their keys begin alike.
  have one : x = z := by
    have distinct := keyed.identifiers (_, info)
      (Schema.mem_entries_of_resourceType stores.described)
    refine distinct.eq_of_same hx hz ?_
    rw [← xId, ← zId]
    exact same
  have order := arranged.sorted.sublist sub
  rw [List.pairwise_cons, List.pairwise_cons] at order
  have after := order.1 c (by simp)
  have before := order.2.1 d (by simp)
  rw [xKeys, yKeys] at after
  rw [yKeys, zKeys, ← one] at before
  have ties := Engine.ties_of_between (by simp) after before
  rw [List.forall₂_map_left_iff, List.forall₂_map_right_iff, List.forall₂_same] at ties
  exact ⟨x, hx, y, hy, xId.symm, yId.symm, ties⟩

/-- The fields of a compiled sort exist. -/
theorem Compile.Orders.exists_field {sort : List SortElement} {terms : List OrderTerm}
    (h : Compile.Orders schema table sort p terms q) (fits : p.Fits schema start)
    (known : p.draft.Knows schema start table) {element : SortElement} (mem : element ∈ sort)
    {path : Path} (sorts : element.target = .field path) :
    ∃ found, schema.fieldAt? table.resourceType path = some found := by
  induction sort generalizing p terms with
  | nil => cases mem
  | cons first rest ih =>
    obtain ⟨term, others, middle, becomes, after, -⟩ := h
    rcases List.mem_cons.mp mem with rfl | mem
    · rw [SortElement.Becomes, sorts] at becomes
      obtain ⟨c, info, last, ⟨name, owner, ends, walks, hfield, -⟩, -⟩ := becomes
      rw [Schema.fieldAt?, ends, ← walks.resourceType_eq fits known]
      exact ⟨_, Schema.stored?_of_field hfield⟩
    · exact ih after (becomes.fits fits known).1
        (fits.knows_extends becomes.quiet.toExtends known) mem

/-- A row is sorted by identifier by its identifier column. -/
theorem Schema.valueAt_id {resourceType : String} {info : ResourceType}
    {found : String × ValueType} (described : schema.resourceType resourceType = .ok info)
    (exists_ : schema.fieldAt? resourceType [Schema.idField] = some found) (x : Row e) :
    schema.valueAt db resourceType [Schema.idField] x = x info.idColumn := by
  have declared := Dict.mem_entries_iff.mp (Schema.mem_entries_of_resourceType described)
  have stored : schema.stored? resourceType Schema.idField = some found := exists_
  have column : found.1 = info.idColumn := by
    simp only [Schema.stored?, declared, ResourceType.columnOf?_id, Option.bind_eq_bind,
      Option.bind_some] at stored
    obtain ⟨column, -, same⟩ := Option.bind_eq_some_iff.mp stored
    cases same
    rfl
  rw [Schema.valueAt, exists_, ← column]
  rfl

end Identifiers

/-! ### Requests -/

namespace Request

variable {schema : Schema} {settings : QuerySettings} {request : Request}

/-- The criteria that a request asks for. -/
def sort (request : Request) : List SortElement :=
  request.layer.sort?.getD Compile.defaultSort

/-- **Only resources that tie with another one come between its rows.**  Let the related resources
of a request multiply rows, and let the rows of the result stand in any order that its statement
allows.  If a row lies between two rows of one resource, then its resource and this one tie in all
criteria of the request.  So rows of one resource stay together if the request sorts by identifier,
as it does by default, and the database tells identifiers apart. -/
theorem rows_divided_by_ties {plan : QueryPlan} (h : request.compile schema settings = .ok plan)
    (multiplies : (Fetch.ofLayer request.layer).reachesToMany schema request.resourceType
      = .ok true) {e : Engine} {db : Database e} (keyed : schema.Keyed db) :
    ∃ page root info, plan.data.start? = some (.derived page) ∧ page.alias? = some root
      ∧ schema.resourceType request.resourceType = .ok info
      ∧ (∀ rows, plan.data.Arranged db rows → ∀ b c d, [b, c, d].Sublist rows →
        e.same (b root info.idColumn) (d root info.idColumn) = true →
        ∃ x ∈ db info.tableName, ∃ y ∈ db info.tableName,
          x info.idColumn = b root info.idColumn ∧ y info.idColumn = c root info.idColumn
          ∧ ∀ element ∈ request.sort,
            e.ties (element.value schema db request.resourceType x)
              (element.value schema db request.resourceType y) = true)
      ∧ ((∃ element ∈ request.sort, element.target = .field [Schema.idField]) →
        (∀ v w, e.ties (some v) w = true → e.same (some v) w = true) →
        plan.data.KeepsTogether db root info.idColumn) := by
  rcases compile_cases schema settings request with ⟨plan', h', hdata, -⟩ | ⟨failure, h', -⟩
  swap
  · rw [h] at h'
    cases h'
  rw [h] at h'
  cases h'
  obtain ⟨-, -, table, htable, page⟩ :=
    (Compile.ensures_dataQuery schema settings request).run hdata
  obtain ⟨leads, named, info, stores⟩ := Schema.stores_of_table htable
  have le := Sql.TableAlias.index_le named
  have described := stores.described
  rw [← leads] at multiplies
  obtain ⟨derived, root, starts, aliased, tied⟩ :=
    page.ties_of_between stores le multiplies keyed
  rw [leads] at described tied
  refine ⟨derived, root, info, starts, aliased, described, tied, ?_⟩
  rintro ⟨element, mem, sorts⟩ told rows arranged b c d sub same
  obtain ⟨x, -, y, -, xId, yId, ties⟩ := tied rows arranged b c d sub same
  obtain ⟨condition?, terms, limit, q, r, parameters, restricts, orders, -⟩ := page
  obtain ⟨field, hfield⟩ := orders.exists_field
    (restricts.fits (.ofTable le) (Draft.knows_start stores)) (Draft.knows_start stores) mem sorts
  rw [leads] at hfield
  have tie := ties element mem
  rw [SortElement.value, SortElement.value, sorts] at tie
  simp only [Schema.valueAt_id described hfield, xId, yId] at tie
  cases value : b root info.idColumn with
  | none =>
    rw [value] at same
    cases same
  | some v =>
    rw [value] at tie
    exact told v _ tie

end Request

/-! ### Tagged items -/

namespace Tagged

/-- An item of low priority. -/
def item (id : Int64) (description : String) : Row Outline.engine :=
  Outline.row [("Id", .int id), ("CreatedAt", .string "2024-05-01"),
    ("Description", .string description), ("Priority", .int 0), ("OwnerId", .int 1)]

/-- A tag on an item. -/
def tag (id : Int64) (name : String) (item : Int64) : Row Outline.engine :=
  Outline.row [("Id", .int id), ("Name", .string name), ("TodoItemId", .int item)]

/-- Two items of one owner.  The second has been tagged between the two tags of the first. -/
def database : Database Outline.engine := fun name =>
  if name = "People" then [Outline.row [("Id", .int 1), ("LastName", .string "Smith")]]
  else if name = "TodoItems" then [item 1 "Make homework", item 2 "Book vacation"]
  else if name = "Tags" then [tag 1 "Important" 1, tag 2 "Family" 2, tag 3 "Personal" 1]
  else []

theorem keyed : Schema.todo.Keyed database :=
  ⟨by decide +kernel, by decide +kernel⟩

/-- Only values that are the same tie. -/
theorem same_of_ties (v : Outline.engine.Datum) (w : Option Outline.engine.Datum)
    (h : Outline.engine.ties (some v) w = true) : Outline.engine.same (some v) w = true := by
  rw [Engine.ties, Bool.and_eq_true] at h
  obtain ⟨after, before⟩ := h
  cases w with
  | none => cases before
  | some w =>
    cases v with
    | int m =>
      cases w with
      | int n =>
        have le : m ≤ n := of_decide_eq_true after
        have ge : n ≤ m := of_decide_eq_true before
        rw [Int64.le_antisymm le ge]
        simp [Engine.same, Engine.compare, Outline.engine, Sql.Truth.isTrue_ofBool]
      | _ => cases after
    | _ => cases after

/-- The first items with their tags. -/
def itemsBy (sort : List SortElement) : Request where
  resourceType := "todoItems"
  layer := {
    filter? := none
    sort? := some sort
    pagination? := none
    selection? := none
    inclusions := [.mk "tags" []] }

end Tagged

namespace Request

/-- Items with the most tags first, then by priority and identifier. -/
def itemsByTags : Request :=
  Tagged.itemsBy
    [⟨.count ["tags"], true⟩, ⟨.field ["priority"], false⟩, ⟨.field ["id"], false⟩]

/-- Items that tie in the number of their tags and in their priority are told apart by
identifier. -/
theorem rows_divided_by_ties_itemsByTags :
    ∃ plan page root, itemsByTags.compile Schema.todo ⟨10, none, false⟩ = .ok plan
      ∧ (Fetch.ofLayer itemsByTags.layer).reachesToMany Schema.todo "todoItems" = .ok true
      ∧ Schema.todo.Keyed Tagged.database
      ∧ plan.data.start? = some (.derived page) ∧ page.alias? = some root
      ∧ plan.data.KeepsTogether Tagged.database root "Id" := by
  have isOk : (itemsByTags.compile Schema.todo ⟨10, none, false⟩).isOk = true := by decide +kernel
  obtain ⟨plan, h⟩ := exists_of_isOk isOk
  have multiplies : (Fetch.ofLayer itemsByTags.layer).reachesToMany Schema.todo "todoItems"
      = .ok true := by decide +kernel
  obtain ⟨page, root, info, starts, aliased, described, -, together⟩ :=
    rows_divided_by_ties h multiplies Tagged.keyed
  have stored : (Schema.todo.resourceType "todoItems").toOption.map ResourceType.idColumn
      = some "Id" := by decide +kernel
  rw [show Schema.todo.resourceType "todoItems" = .ok info from described] at stored
  have identified : ⟨.field ["id"], false⟩ ∈ itemsByTags.sort := by
    simp [sort, itemsByTags, Tagged.itemsBy]
  have kept := together ⟨_, identified, rfl⟩ Tagged.same_of_ties
  rw [Option.some.inj stored] at kept
  exact ⟨plan, page, root, h, multiplies, Tagged.keyed, starts, aliased, kept⟩

/-- Items by priority alone. -/
def itemsByPriority : Request :=
  Tagged.itemsBy [⟨.field ["priority"], false⟩]

/-- Items of one priority are divided: the second tag, of the second item, may come between the
first and the third, which are tags of the first item. -/
theorem not_keepsTogether_itemsByPriority :
    ∃ plan page, itemsByPriority.compile Schema.todo ⟨10, none, false⟩ = .ok plan
      ∧ Schema.todo.Keyed Tagged.database
      ∧ plan.data.start? = some (.derived page) ∧ page.alias? = some ⟨2⟩
      ∧ ¬plan.data.KeepsTogether Tagged.database ⟨2⟩ "Id" := by
  have isOk : (itemsByPriority.compile Schema.todo ⟨10, none, false⟩).isOk = true := by
    decide +kernel
  obtain ⟨plan, h⟩ := exists_of_isOk isOk
  have evaluated : (itemsByPriority.compile Schema.todo ⟨10, none, false⟩).toOption.any
      (fun plan => plan.data.pagesAsFound Tagged.database
        && plan.data.start?.bind Source.alias? == some ⟨2⟩
        && plan.data.divides Tagged.database ⟨2⟩ "Id" (plan.data.foundOverPage Tagged.database))
      = true := by decide +kernel
  rw [h, Except.toOption, Option.any_some, Bool.and_eq_true, Bool.and_eq_true, beq_iff_eq]
    at evaluated
  obtain ⟨⟨asFound, aliased⟩, divided⟩ := evaluated
  obtain ⟨page, starts⟩ := Select.exists_page asFound
  rw [starts] at aliased
  rw [← Select.found_eq_foundOverPage asFound] at divided
  exact ⟨plan, page, h, Tagged.keyed, starts, aliased, Select.not_keepsTogether_of_divides divided⟩

end Request

end ResourceQuery
