import ResourceQuery.Proofs.Compile.FilterScope

/-!
# What sorts and fetched relationships become

Sort elements become criteria of the order; relationships to be followed become joins, selectors
and further criteria.  As for filters, the relation between the two is given by itself, and the
invariant is proved from it.

## Main Definitions

- `SortElement.Becomes`, `Compile.Orders`: the criteria that sort elements become.
- `Compile.FilteredAt`: a relationship is joined as a derived table of the rows that a filter admits.
- `Compile.LayerAt`: a relationship is joined and selected from.
- `Fetch.Becomes`: everything to be followed from a table is joined and selected from.

## Main Statements

- `Compile.FilteredAt.fits`: a derived table keeps the invariant.
- `Fetch.Becomes.grows`: so does everything to be followed, and its criteria lead to sources.
-/

namespace ResourceQuery

open Sql (Table Source Select Selector Column Condition OrderTerm Remap TableAlias)

/-! ### Criteria -/

/-- **The criterion that a sort element becomes.**  A column of a joined table is noted for the
order. -/
def SortElement.Becomes (schema : Schema) (table : Table) (element : SortElement) (p : Progress)
    (term : OrderTerm) (q : Progress) : Prop :=
  match element.target with
  | .field path =>
    ∃ c info last, Compile.FieldAt schema p table path c info last
      ∧ term = ⟨.column c, element.descending⟩
      ∧ q = if c.alias? = some table.tableAlias then last
        else ⟨last.names, last.draft.addSortColumn c⟩
  | .count path =>
    ∃ select, Compile.CountAt schema p table path select q
      ∧ term = ⟨.count select, element.descending⟩

/-- The criteria that sort elements become, one after the other. -/
def Compile.Orders (schema : Schema) (table : Table) :
    List SortElement → Progress → List OrderTerm → Progress → Prop
  | [], p, terms, q => terms = [] ∧ q = p
  | element :: rest, p, terms, q =>
    ∃ term others middle, element.Becomes schema table p term middle
      ∧ Orders schema table rest middle others q ∧ terms = term :: others

/-- The criterion leads to sources of the query. -/
abbrev Progress.Leads (q : Progress) (start : Source) (term : OrderTerm) : Prop :=
  term.Leads q.draft.remap (q.draft.sources start) q.names.tables

section Criteria

variable {schema : Schema} {start : Source} {p q : Progress} {table : Table}

theorem Progress.Quiet.addSortColumn (p : Progress) (c : Column) :
    p.Quiet ⟨p.names, p.draft.addSortColumn c⟩ := by
  unfold Draft.addSortColumn
  split
  · exact .refl p
  · exact ⟨Nat.le_refl _, ⟨[], by simp, by simp⟩, rfl, rfl, List.subset_append_left _ _⟩

/-- Selectors and columns noted for the order matter only for themselves. -/
theorem Progress.Fits.redraft (fits : p.Fits schema start) {d : Draft}
    (joins : d.joins = p.draft.joins) (joined : d.joined = p.draft.joined)
    (remap : d.remap = p.draft.remap)
    (selected : ∀ entry ∈ d.selectors, ∀ selector ∈ entry.2,
      ∃ c rename?, selector = .column c rename? ∧ c.VisibleIn (p.draft.sources start))
    (sorted : ∀ c ∈ d.sortColumns, p.draft.remap.Resolves (p.draft.sources start) c) :
    Progress.Fits schema start ⟨p.names, d⟩ := by
  have sources : d.sources start = p.draft.sources start := by
    rw [Draft.sources, joins]
    rfl
  rw [← sources] at selected sorted
  rw [← remap] at sorted
  refine ⟨?_, ?_, ?_, ?_, ?_, ?_, selected, sorted⟩
  · rw [sources]
    exact fits.aliased
  · rw [sources]
    exact fits.distinct
  · rw [sources, remap]
    exact fits.moved
  · rw [sources]
    exact fits.closed
  · rw [remap, joins]
    exact fits.conditions
  · intro a name target found
    have found' : p.draft.joinedFor? a name = some target := by
      rw [Draft.joinedFor?, ← joined]
      exact found
    obtain ⟨source, key, outer, inner, known, named, connects, mem⟩ := fits.joined a name target found'
    refine ⟨source, key, outer, inner, ⟨known.stored, ?_⟩, named, connects, ?_⟩
    · rw [sources, remap]
      exact known.placed
    · rw [joins]
      exact mem

/-- A column that leads to a source may be noted for the order. -/
theorem Progress.Fits.addSortColumn (fits : p.Fits schema start) {c : Column}
    (resolves : p.draft.remap.Resolves (p.draft.sources start) c) :
    Progress.Fits schema start ⟨p.names, p.draft.addSortColumn c⟩ := by
  unfold Draft.addSortColumn
  split
  · exact fits
  · refine fits.redraft rfl rfl rfl fits.selected ?_
    intro other mem
    rcases List.mem_append.mp mem with mem | mem
    · exact fits.sorted other mem
    · rw [List.mem_singleton] at mem
      rw [mem]
      exact resolves

namespace Compile

/-- The number of rows at the end of a path can be a criterion. -/
theorem CountAt.leads {path : Path} {select : Select} {descending : Bool}
    (at_ : CountAt schema p table path select q) (fits : p.Fits schema start)
    (known : p.draft.Knows schema start table) :
    q.Leads start ⟨.count select, descending⟩ := by
  obtain ⟨owner, name, r, target, key, outer, inner, many, connects, named, rfl, rfl⟩ := at_
  obtain ⟨fits, known⟩ := many.2.1.fits fits known
  obtain ⟨houter, hinner⟩ := connects.mem_columns known.stored
  -- The alias of the counted table is fresh, so it is not the alias of anything else.
  have fresh : ¬target.tableAlias.index ≤ r.names.tables := by
    rw [named]
    exact Nat.not_succ_le_self _
  refine .count (fits.resolves_of_knows known houter) hinner ?_ ?_ ?_
  · exact Sql.TableAlias.index_le named
  · show r.draft.remap.get? target.tableAlias = none
    cases hmove : r.draft.remap.get? target.tableAlias with
    | none => rfl
    | some e => exact absurd (fits.moved _ e hmove).1 fresh
  · intro source mem same
    exact fresh (fits.bounded.sources source mem _ same)

end Compile

theorem SortElement.Becomes.quiet {element : SortElement} {term : OrderTerm}
    (h : element.Becomes schema table p term q) : p.Quiet q := by
  unfold SortElement.Becomes at h
  split at h
  · obtain ⟨c, info, last, at_, -, rfl⟩ := h
    split
    · exact at_.quiet
    · exact at_.quiet.trans (.addSortColumn last c)
  · obtain ⟨select, at_, -⟩ := h
    exact at_.quiet

/-- **A sort element on a known table keeps the invariant**, and its criterion leads to sources. -/
theorem SortElement.Becomes.fits {element : SortElement} {term : OrderTerm}
    (h : element.Becomes schema table p term q) (fits : p.Fits schema start)
    (known : p.draft.Knows schema start table) :
    q.Fits schema start ∧ q.Leads start term := by
  unfold SortElement.Becomes at h
  split at h
  · obtain ⟨c, info, last, at_, rfl, rfl⟩ := h
    obtain ⟨fits, owner, known, mem⟩ := at_.fits fits known
    have resolves := fits.resolves_of_knows known mem
    split
    · exact ⟨fits, .column resolves⟩
    · have quiet := Progress.Quiet.addSortColumn last c
      exact ⟨fits.addSortColumn resolves,
        .column (fits.resolves_extends quiet.toExtends resolves)⟩
  · obtain ⟨select, at_, rfl⟩ := h
    exact ⟨at_.fits fits known, at_.leads fits known⟩

/-- A criterion by column is one of the table itself, or it has been noted. -/
theorem SortElement.Becomes.noted {element : SortElement} {c : Column} {descending : Bool}
    (h : element.Becomes schema table p ⟨.column c, descending⟩ q) (fits : p.Fits schema start)
    (known : p.draft.Knows schema start table) :
    c ∈ table.columns ∨ c ∈ q.draft.sortColumns := by
  unfold SortElement.Becomes at h
  split at h
  · obtain ⟨c', info, last, at_, hterm, rfl⟩ := h
    cases hterm
    have known' := fits.knows_extends at_.quiet.toExtends known
    obtain ⟨fits, owner, owned, mem⟩ := at_.fits fits known
    split
    · rename_i own
      rw [Table.alias?_of_mem_columns mem] at own
      left
      rw [← fits.eq_of_alias owned known' (Option.some.inj own)]
      exact mem
    · right
      unfold Draft.addSortColumn
      split
      · assumption
      · simp
  · obtain ⟨select, -, hterm⟩ := h
    cases hterm

namespace Compile

theorem Orders.quiet {sort : List SortElement} {terms : List OrderTerm}
    (h : Orders schema table sort p terms q) : p.Quiet q := by
  induction sort generalizing p terms with
  | nil =>
    rw [h.2]
    exact .refl p
  | cons element rest ih =>
    obtain ⟨term, others, middle, first, after, -⟩ := h
    exact first.quiet.trans (ih after)

theorem Orders.fits {sort : List SortElement} {terms : List OrderTerm}
    (h : Orders schema table sort p terms q) (fits : p.Fits schema start)
    (known : p.draft.Knows schema start table) :
    q.Fits schema start ∧ ∀ term ∈ terms, q.Leads start term := by
  induction sort generalizing p terms with
  | nil =>
    obtain ⟨rfl, rfl⟩ := h
    exact ⟨fits, by simp⟩
  | cons element rest ih =>
    obtain ⟨term, others, middle, first, after, rfl⟩ := h
    obtain ⟨fits', leads⟩ := first.fits fits known
    obtain ⟨fits'', leads'⟩ := ih after fits' (fits.knows_extends first.quiet.toExtends known)
    refine ⟨fits'', fun other mem => ?_⟩
    rcases List.mem_cons.mp mem with rfl | mem
    · exact leads.extends_ fits' after.quiet.toExtends
    · exact leads' other mem

/-- Criteria by column are columns of the table itself, or they have been noted. -/
theorem Orders.noted {sort : List SortElement} {terms : List OrderTerm}
    (h : Orders schema table sort p terms q) (fits : p.Fits schema start)
    (known : p.draft.Knows schema start table) :
    ∀ c descending, ⟨.column c, descending⟩ ∈ terms →
      c ∈ table.columns ∨ c ∈ q.draft.sortColumns := by
  induction sort generalizing p terms with
  | nil =>
    obtain ⟨rfl, rfl⟩ := h
    simp
  | cons element rest ih =>
    obtain ⟨term, others, middle, first, after, rfl⟩ := h
    intro c descending mem
    rcases List.mem_cons.mp mem with rfl | mem
    · exact (first.noted fits known).imp_right fun noted => after.quiet.noted noted
    · exact ih after (first.fits fits known).1
        (fits.knows_extends first.quiet.toExtends known) c descending mem

end Compile

end Criteria

/-! ### Related rows -/

namespace Compile

/-- **A relationship is joined as a derived table** of the rows that a filter admits: the table it
leads to is moved into the derived table. -/
def FilteredAt (schema : Schema) (p : Progress) (source : Table) (name : String) (filter : Filter)
    (base : Table) (derived : Select) (q : Progress) : Prop :=
  ∃ key outer inner condition? last, Connects schema source name base key outer inner
    ∧ base.tableAlias = ⟨p.names.tables + 1⟩
    ∧ Filter.OptionBecomes schema base (some filter)
      ⟨⟨p.names.tables + 1, p.names.parameters⟩, Draft.empty⟩ condition? last
    ∧ derived = { plainQuery base .columns last.draft condition? with
        alias? := some ⟨last.names.tables + 1⟩ }
    ∧ q = ⟨⟨last.names.tables + 1, last.names.parameters⟩,
        (p.draft.move base.tableAlias ⟨last.names.tables + 1⟩).addJoin
          ⟨.derived derived, ⟨.left, outer, inner⟩⟩⟩

/-- What a relationship leads to is joined, and provided by a table or a derived table. -/
def RelatedAt (schema : Schema) (p : Progress) (source : Table) (name : String)
    (filter? : Option Filter) (target : Table) (provider : Source) (q : Progress) : Prop :=
  match filter? with
  | some filter =>
    ∃ derived, FilteredAt schema p source name filter target derived q
      ∧ provider = .derived derived
  | none => Reaches schema p source name target q ∧ provider = .table target

/-- The selectors for what a selection asks for. -/
def Selects (schema : Schema) (table : Table) (provider : Source) (selection? : Option Selection)
    (selectors : List Selector) : Prop :=
  ∃ names, selectedColumns schema table selection? = .ok names
    ∧ columnSelectors table provider names = .ok selectors

/-- **A relationship is joined and selected from**, and adds its criteria to the order. -/
def LayerAt (schema : Schema) (p : Progress) (source : Table) (name : String) (layer : Layer)
    (target : Table) (terms : List OrderTerm) (q : Progress) : Prop :=
  ∃ relationship provider a middle columns own id,
    schema.relationship source.resourceType name = .ok relationship
      ∧ RelatedAt schema p source name layer.filter? target provider middle
      ∧ provider.alias? = some a ∧ Selects schema target provider layer.selection? columns
      ∧ Orders schema target (layer.sort?.getD [])
        ⟨middle.names, middle.draft.addSelectors a columns⟩ own q
      ∧ target.idColumn = .ok id
      ∧ terms = own ++ if relationship.isToMany then [⟨.column id, false⟩] else []

end Compile

namespace Fetch

mutual

/-- **Everything to be followed from a table is joined and selected from.** -/
def Becomes (schema : Schema) (table : Table) :
    Fetch → Progress → List OrderTerm → Progress → Prop
  | mk _ relationships, p, terms, q => AllBecome schema table relationships p terms q

/-- Several relationships are joined and selected from, each with everything to be followed from
there. -/
def AllBecome (schema : Schema) (table : Table) :
    List (String × Fetch) → Progress → List OrderTerm → Progress → Prop
  | [], p, terms, q => terms = [] ∧ q = p
  | (name, fetch) :: rest, p, terms, q =>
    ∃ target own below after r s, Compile.LayerAt schema p table name fetch.layer target own r
      ∧ Becomes schema target fetch r below s ∧ AllBecome schema table rest s after q
      ∧ terms = own ++ below ++ after

end

end Fetch

/-! ### Derived tables keep the invariant -/

theorem Sql.Remap.get?_insert (m : Remap) (former enclosing a : TableAlias) :
    (m.insert former enclosing).get? a = if a = former then some enclosing else m.get? a := by
  obtain ⟨moves⟩ := m
  simp only [Remap.insert, Remap.get?]
  fun_induction Remap.insertMove former enclosing moves with
  | case1 => grind
  | case2 => grind
  | case3 b e rest ne ih => grind

/-- The select list of a query under construction: that of the source it starts from, then those of
the joined sources. -/
theorem Draft.flatMap_selectors_entries (d : Draft) (start : Source) (selectors : List Selector) :
    (d.entries start selectors).flatMap Sql.Entry.selectors
      = selectors ++ d.joins.flatMap (fun join => d.selectorsOf join.source) := by
  simp [Draft.entries, List.flatMap_map]

namespace Compile

section AllColumns

variable {base : Table} {d : Draft} {condition? : Option Condition} {a : TableAlias}

/-- A query over all columns of a table selects nothing else. -/
theorem selectors_columnsQuery (none_ : d.selectors = []) :
    Select.selectors { plainQuery base .columns d condition? with alias? := some a }
      = base.columns.map (fun c => .column c none) := by
  have nothing : ∀ source, d.selectorsOf source = [] := by
    intro source
    unfold Draft.selectorsOf
    rw [none_]
    split <;> rfl
  simp [Select.selectors, plainQuery, Draft.flatMap_selectors_entries, nothing,
    QueryShape.selectors]

theorem columnSelectors_columnsQuery (none_ : d.selectors = []) :
    Select.columnSelectors { plainQuery base .columns d condition? with alias? := some a }
      = base.columns.map (fun c => (c, none)) := by
  rw [Select.columnSelectors, selectors_columnsQuery none_, List.filterMap_map]
  exact congrFun List.filterMap_eq_map base.columns

theorem outputNames_columnsQuery (none_ : d.selectors = []) :
    Select.outputNames { plainQuery base .columns d condition? with alias? := some a }
      = base.columns.map Column.name := by
  rw [Select.outputNames, selectors_columnsQuery none_, List.filterMap_map]
  exact congrFun List.filterMap_eq_map base.columns

end AllColumns

variable {schema : Schema} {start : Source} {p q : Progress} {source base : Table}
  {name : String} {filter : Filter} {derived : Select}

theorem columns_ne_nil {t : Table} (stored : ∃ info, schema.Stores info t) : t.columns ≠ [] := by
  obtain ⟨info, stores⟩ := stored
  obtain ⟨c, mem, -⟩ := stores.idColumn_ok
  exact List.ne_nil_of_mem mem

/-- The derived table of the rows that a filter admits is closed. -/
theorem FilteredAt.closed (h : FilteredAt schema p source name filter base derived q) :
    (Source.derived derived).WellScoped := by
  obtain ⟨key, outer, inner, condition?, last, connects, named, below, rfl, -⟩ := h
  have nothing : last.draft.selectors = [] := (Filter.OptionBecomes.quiet _ below).selectors
  obtain ⟨info, stores⟩ := connects.stored
  have le : base.tableAlias.index ≤ p.names.tables + 1 :=
    Sql.TableAlias.index_le named
  simp only [Source.WellScoped]
  refine ⟨below.wellScoped_plainQuery stores le, ?_, ?_⟩
  · rw [columnSelectors_columnsQuery nothing]
    simpa using columns_ne_nil ⟨info, stores⟩
  · rw [outputNames_columnsQuery nothing]
    exact stores.distinct

/-- The derived table provides the columns of the table that was moved into it. -/
theorem FilteredAt.knows (h : FilteredAt schema p source name filter base derived q) :
    q.draft.Knows schema start base := by
  obtain ⟨key, outer, inner, condition?, last, connects, named, below, rfl, rfl⟩ := h
  have nothing : last.draft.selectors = [] := (Filter.OptionBecomes.quiet _ below).selectors
  refine ⟨connects.stored, .inr ⟨⟨last.names.tables + 1⟩,
    { plainQuery base .columns last.draft condition? with
      alias? := some ⟨last.names.tables + 1⟩ }, ?_, ?_, rfl, rfl, ?_⟩⟩
  · simp only [Draft.addJoin, Draft.move, Sql.Remap.get?_insert, if_true]
  · simp [Draft.sources, Draft.addJoin, Draft.move]
  · intro c mem
    rw [columnSelectors_columnsQuery nothing]
    exact List.mem_map_of_mem mem

theorem FilteredAt.extends_ (h : FilteredAt schema p source name filter base derived q) :
    p.Extends q := by
  obtain ⟨key, outer, inner, condition?, last, connects, named, below, rfl, rfl⟩ := h
  have names := (Filter.OptionBecomes.quiet _ below).names
  simp only at names
  refine ⟨by simp only; omega, ⟨[_], rfl, ?_⟩, ?_⟩
  · intro join mem a ha
    rw [List.mem_singleton] at mem
    subst mem
    cases ha
    simp only
    omega
  · intro a le
    simp only [Draft.addJoin, Draft.move, Sql.Remap.get?_insert]
    rw [if_neg ?_]
    intro same
    rw [same, named] at le
    exact absurd le (Nat.not_succ_le_self _)

/-- **A derived table keeps the invariant.** -/
theorem FilteredAt.fits (h : FilteredAt schema p source name filter base derived q)
    (fits : p.Fits schema start) (known : p.draft.Knows schema start source) :
    q.Fits schema start := by
  have grown := h.extends_
  have closed := h.closed
  have moved : q.draft.Knows schema start base := h.knows
  obtain ⟨key, outer, inner, condition?, last, connects, named, below, hderived, hq⟩ := h
  have names := (Filter.OptionBecomes.quiet _ below).names
  obtain ⟨houter, hinner⟩ := connects.mem_columns known.stored
  have enclosing : (Source.derived derived).alias? = some ⟨last.names.tables + 1⟩ := by
    rw [hderived]
    rfl
  have joins : q.draft.joins = p.draft.joins ++ [⟨.derived derived, ⟨.left, outer, inner⟩⟩] := by
    rw [hq]
    rfl
  -- Only the table inside the derived table was moved.
  have get : ∀ b, q.draft.remap.get? b = if b = base.tableAlias
      then some ⟨last.names.tables + 1⟩ else p.draft.remap.get? b := by
    intro b
    rw [hq]
    exact Sql.Remap.get?_insert _ _ _ _
  have taken : q.names.tables = last.names.tables + 1 := by
    rw [hq]
  simp only at names
  refine fits.addSource grown joins enclosing ?_ ?_ closed ?_ ?_ ?_ ?_ ?_ ?_
  · simp only
    omega
  · exact Nat.le_of_eq taken.symm
  · intro b e hmove
    rw [get] at hmove
    split at hmove
    · rename_i same
      right
      rw [taken, same, named]
      refine ⟨Nat.lt_succ_self _, by simp only; omega, ?_⟩
      intro clash
      have := congrArg TableAlias.index clash
      simp only at this
      omega
    · exact .inl hmove
  · exact fits.resolves_extends grown (fits.resolves_of_knows known houter)
  · -- The key column belongs to the table that was moved, and the derived table provides it.
    refine ⟨base.tableAlias, Table.alias?_of_mem_columns hinner, .derived derived, ?_, ?_⟩
    · rw [Draft.sources, joins]
      simp
    · rw [get, if_pos rfl]
      have nothing : last.draft.selectors = [] := (Filter.OptionBecomes.quiet _ below).selectors
      have selected : (inner, none) ∈ derived.columnSelectors := by
        rw [hderived, columnSelectors_columnsQuery nothing]
        exact List.mem_map_of_mem hinner
      obtain ⟨found, hfound⟩ := Sql.Select.findColumn?_of_selected hinner selected
      exact ⟨enclosing, by rw [Source.findColumn?, hfound]; rfl⟩
  · intro b other target found
    left
    rw [hq] at found
    exact found
  · rw [hq]
    rfl
  · rw [hq]
    rfl

end Compile

/-! ### Select lists keep the invariant -/

theorem Draft.mem_appendSelectors {a : TableAlias} {more : List Selector}
    {selectors : List (TableAlias × List Selector)} {entry : TableAlias × List Selector}
    (mem : entry ∈ Draft.appendSelectors a more selectors) {selector : Selector}
    (listed : selector ∈ entry.2) :
    selector ∈ more ∨ ∃ old ∈ selectors, selector ∈ old.2 := by
  fun_induction Draft.appendSelectors a more selectors with
  | case1 =>
    rw [List.mem_singleton] at mem
    subst mem
    exact .inl listed
  | case2 others rest =>
    rcases List.mem_cons.mp mem with rfl | mem
    · rcases List.mem_append.mp listed with listed | listed
      · exact .inr ⟨_, List.mem_cons_self, listed⟩
      · exact .inl listed
    · exact .inr ⟨entry, List.mem_cons_of_mem _ mem, listed⟩
  | case3 b others rest ne ih =>
    rcases List.mem_cons.mp mem with rfl | mem
    · exact .inr ⟨_, List.mem_cons_self, listed⟩
    · rcases ih mem with new | ⟨old, hold, listed⟩
      · exact .inl new
      · exact .inr ⟨old, List.mem_cons_of_mem _ hold, listed⟩

section SelectLists

variable {schema : Schema} {start : Source} {p q : Progress}

theorem Progress.Extends.addSelectors (p : Progress) (a : TableAlias) (more : List Selector) :
    p.Extends ⟨p.names, p.draft.addSelectors a more⟩ :=
  ⟨Nat.le_refl _, ⟨[], by simp [Draft.addSelectors], by simp⟩, fun _ _ => rfl⟩

/-- Columns of sources may be selected. -/
theorem Progress.Fits.addSelectors (fits : p.Fits schema start) {a : TableAlias}
    {more : List Selector} (visible : ∀ selector ∈ more, ∃ c rename?,
      selector = .column c rename? ∧ c.VisibleIn (p.draft.sources start)) :
    Progress.Fits schema start ⟨p.names, p.draft.addSelectors a more⟩ := by
  refine fits.redraft rfl rfl rfl ?_ fits.sorted
  intro entry mem selector listed
  rcases Draft.mem_appendSelectors mem listed with new | ⟨old, hold, listed⟩
  · exact visible selector new
  · exact fits.selected old hold selector listed

namespace Compile

/-- Selectors for columns of a source name columns that it exposes. -/
theorem exposes_of_columnSelectors {table : Table} {provider : Source} {names : List String}
    {selectors : List Selector} (h : columnSelectors table provider names = .ok selectors) :
    ∀ selector ∈ selectors, ∃ c, selector = .column c none ∧ provider.Exposes c
      ∧ c.alias? = provider.alias? := by
  induction names generalizing selectors with
  | nil =>
    cases h
    simp
  | cons name rest ih =>
    unfold columnSelectors at h
    cases hcolumn : provider.getColumn name (some table.tableAlias) with
    | error e =>
      rw [hcolumn] at h
      cases h
    | ok c =>
      cases hrest : columnSelectors table provider rest with
      | error e =>
        rw [hcolumn, hrest] at h
        cases h
      | ok others =>
        rw [hcolumn, hrest] at h
        cases h
        have found : provider.findColumn? name (some table.tableAlias) = some c := by
          unfold Source.getColumn at hcolumn
          split at hcolumn
          · cases hcolumn
            assumption
          · cases hcolumn
        intro selector mem
        rcases List.mem_cons.mp mem with rfl | mem
        · exact ⟨c, rfl, Sql.Source.exposes_of_findColumn? found⟩
        · exact ih hrest selector mem

/-- What is selected from a source of the query is visible in it. -/
theorem Selects.visible {table : Table} {provider : Source} {selection? : Option Selection}
    {selectors : List Selector} {a : TableAlias} {visible : List Source}
    (h : Selects schema table provider selection? selectors) (mem : provider ∈ visible)
    (named : provider.alias? = some a) :
    ∀ selector ∈ selectors, ∃ c rename?, selector = .column c rename?
      ∧ c.VisibleIn visible := by
  obtain ⟨names, -, h⟩ := h
  intro selector listed
  obtain ⟨c, rfl, exposes, same⟩ := exposes_of_columnSelectors h selector listed
  exact ⟨c, none, rfl, provider, mem, by rw [named]; rfl, same, exposes⟩

end Compile

end SelectLists

/-! ### Everything to be followed keeps the invariant -/

section Following

variable {schema : Schema} {start : Source}

namespace Compile

variable {p q : Progress} {source target : Table} {name : String}

/-- What a relationship leads to becomes known, and is provided by a source. -/
theorem RelatedAt.fits {filter? : Option Filter} {provider : Source}
    (h : RelatedAt schema p source name filter? target provider q) (fits : p.Fits schema start)
    (known : p.draft.Knows schema start source) :
    p.Extends q ∧ q.Fits schema start ∧ q.draft.Knows schema start target
      ∧ provider ∈ q.draft.sources start := by
  cases filter? with
  | some filter =>
    obtain ⟨derived, h, rfl⟩ := h
    refine ⟨h.extends_, h.fits fits known, h.knows, ?_⟩
    obtain ⟨key, outer, inner, condition?, last, -, -, -, -, rfl⟩ := h
    simp [Draft.sources, Draft.addJoin, Draft.move]
  | none =>
    obtain ⟨reaches, rfl⟩ := h
    obtain ⟨fits', known'⟩ := reaches.fits fits known
    refine ⟨reaches.quiet.toExtends, fits', known', ?_⟩
    cases reaches with
    | again found =>
      obtain ⟨_, key, outer, inner, -, -, -, mem⟩ := fits.joined _ _ _ found
      exact List.mem_cons_of_mem _ (List.mem_map_of_mem mem)
    | anew connects fresh => simp [Draft.sources, Draft.addRelationshipJoin]

/-- A joined layer leads to the target of its relationship. -/
theorem LayerAt.resourceType_eq {layer : Layer} {terms : List OrderTerm}
    (h : LayerAt schema p source name layer target terms q) (fits : p.Fits schema start)
    (known : p.draft.Knows schema start source) :
    target.resourceType = schema.targetOf source.resourceType name := by
  obtain ⟨_, provider, _, _, _, _, _, -, related, -⟩ := h
  unfold RelatedAt at related
  split at related
  · obtain ⟨derived, ⟨key, outer, inner, _, _, connects, -⟩, -⟩ := related
    exact connects.resourceType_eq
  · obtain ⟨key, outer, inner, connects, -⟩ := related.1.exists_join fits known
    exact connects.resourceType_eq

/-- **A relationship that is joined and selected from keeps the invariant**, and its criteria lead
to sources. -/
theorem LayerAt.grows {layer : Layer} {terms : List OrderTerm}
    (h : LayerAt schema p source name layer target terms q) (fits : p.Fits schema start)
    (known : p.draft.Knows schema start source) :
    p.Extends q ∧ q.Fits schema start ∧ q.draft.Knows schema start target
      ∧ ∀ term ∈ terms, q.Leads start term := by
  obtain ⟨relationship, provider, a, middle, columns, own, id, -, related, named, selects, orders,
    hid, rfl⟩ := h
  obtain ⟨grown, joined, known, mem⟩ := related.fits fits known
  -- Selectors are added before the sort is compiled, so the criteria lead to the final sources.
  have selecting := Progress.Extends.addSelectors middle a columns
  have selected := joined.addSelectors (a := a) (selects.visible mem named)
  have known := joined.knows_extends selecting known
  have ordering := orders.quiet.toExtends
  obtain ⟨ordered, leads⟩ := orders.fits selected known
  have known := selected.knows_extends ordering known
  refine ⟨(grown.trans selecting).trans ordering, ordered, known, fun term listed => ?_⟩
  rcases List.mem_append.mp listed with listed | listed
  · exact leads term listed
  · split at listed
    · rw [List.mem_singleton] at listed
      subst listed
      obtain ⟨info, stores⟩ := known.stored
      obtain ⟨c, hc, hcolumn, -⟩ := stores.idColumn_ok
      rw [hid] at hcolumn
      cases hcolumn
      exact .column (ordered.resolves_of_knows known hc)
    · cases listed

end Compile

namespace Fetch

mutual

/-- **Everything to be followed keeps the invariant**, and its criteria lead to sources. -/
theorem Becomes.grows {table : Table} {p q : Progress} {terms : List OrderTerm} :
    (fetch : Fetch) → fetch.Becomes schema table p terms q → p.Fits schema start →
      p.draft.Knows schema start table →
      p.Extends q ∧ q.Fits schema start ∧ ∀ term ∈ terms, q.Leads start term
  | mk _ relationships, h, fits, known => by
    simp only [Becomes] at h
    exact AllBecome.grows relationships h fits known

theorem AllBecome.grows {table : Table} {p q : Progress} {terms : List OrderTerm} :
    (relationships : List (String × Fetch)) →
      AllBecome schema table relationships p terms q → p.Fits schema start →
      p.draft.Knows schema start table →
      p.Extends q ∧ q.Fits schema start ∧ ∀ term ∈ terms, q.Leads start term
  | [], h, fits, _ => by
    simp only [AllBecome] at h
    obtain ⟨rfl, rfl⟩ := h
    exact ⟨.refl _, fits, by simp⟩
  | (name, fetch) :: rest, h, fits, known => by
    simp only [AllBecome] at h
    obtain ⟨target, own, below, after, r, s, layer, inside, others, rfl⟩ := h
    obtain ⟨joining, joined, reached, leads⟩ := layer.grows fits known
    obtain ⟨following, followed, leads'⟩ := Becomes.grows fetch inside joined reached
    have back := fits.knows_extends (joining.trans following) known
    obtain ⟨finishing, finished, leads''⟩ := AllBecome.grows rest others followed back
    refine ⟨(joining.trans following).trans finishing, finished, fun term listed => ?_⟩
    rw [List.mem_append, List.mem_append] at listed
    rcases listed with (listed | listed) | listed
    · exact (leads term listed).extends_ joined (following.trans finishing)
    · exact (leads' term listed).extends_ followed finishing
    · exact leads'' term listed

end

end Fetch

end Following

end ResourceQuery
