import ResourceQuery.Proofs.Compile.Fetching

/-!
# Compiling sorts and relationships

What `Fetching` says sorts and relationships become is what the compiler makes of them, unless it
fails for a reason that lies in the request.

## Main Definitions

- `Compile.Provides`: a source provides all columns of a table.

## Main Statements

- `Compile.ensures_orderTerms`: compiling a sort gives the criteria that it becomes.
- `Compile.ensures_joinRelated`: joining a relationship does what it becomes.
- `Fetch.ensures_compile`: compiling a tree of relationships does what it becomes, or fails for a
  reason that lies in the request.
-/

namespace ResourceQuery

open Sql (Table Source Select Selector Column Condition OrderTerm Remap TableAlias)

/-! ### Criteria -/

section Compiling

variable {schema : Schema} {start : Source} {p : Progress} {table : Table}

theorem SortElement.ensures_compile (fits : p.Fits schema start)
    (known : p.draft.Knows schema start table) (element : SortElement) :
    Compile.Ensures (element.compile schema table) p
      (fun term q => element.Becomes schema table p term q) := by
  unfold SortElement.compile
  split
  · rename_i path htarget
    refine (Compile.ensures_fieldColumn fits known path).bind ?_
    rintro ⟨c, info⟩ last at_
    have becomes : ∀ q, (q = if c.alias? = some table.tableAlias then last
          else ⟨last.names, last.draft.addSortColumn c⟩) →
        element.Becomes schema table p ⟨.column c, element.descending⟩ q := by
      intro q hq
      simp only [SortElement.Becomes, htarget]
      exact ⟨c, info, last, at_, rfl, hq⟩
    dsimp only
    by_cases own : c.alias? = some table.tableAlias
    · rw [if_neg (not_not_intro own)]
      exact becomes last (by rw [if_pos own])
    · rw [if_pos own]
      refine Compile.ensures_changeDraft_bind ?_
      exact becomes _ (by rw [if_neg own])
  · rename_i path htarget
    refine (Compile.ensures_relatedCount fits known path .sort).bind fun select q at_ => ?_
    refine Compile.ensures_pure ?_
    simp only [SortElement.Becomes, htarget]
    exact ⟨select, at_, rfl⟩

namespace Compile

theorem ensures_orderTerms (fits : p.Fits schema start)
    (known : p.draft.Knows schema start table) (sort : List SortElement) :
    Ensures (orderTerms schema table sort) p
      (fun terms q => Orders schema table sort p terms q) := by
  induction sort generalizing p with
  | nil => exact ensures_pure ⟨rfl, rfl⟩
  | cons element rest ih =>
    unfold orderTerms
    refine (element.ensures_compile fits known).bind fun term middle first => ?_
    have fits' := (first.fits fits known).1
    have known' := fits.knows_extends first.quiet.toExtends known
    refine (ih fits' known').bind fun others q h => ?_
    exact ensures_pure ⟨term, others, middle, first, h, rfl⟩

/-! ### Select lists -/

/-- The columns of attributes are looked up only by what the request says. -/
theorem not_internal_of_wantedColumns {resourceType : String} {info : ResourceType}
    {attributes : List String} {e : CompileError}
    (h : wantedColumns resourceType info attributes = .error e) : e.isInternal = false := by
  induction attributes with
  | nil => cases h
  | cons name rest ih =>
    unfold wantedColumns at h
    split at h
    · exact ih h
    · split at h
      · cases h
        rfl
      · split at h
        · cases h
        · cases hrest : wantedColumns resourceType info rest with
          | error f =>
            rw [hrest] at h
            cases h
            exact ih hrest
          | ok wanted =>
            rw [hrest] at h
            cases h

/-- What a selection asks for are columns that store values. -/
theorem selectedColumns_spec (schema : Schema) (table : Table)
    (selection? : Option Selection) :
    match selectedColumns schema table selection? with
    | .ok names => ∀ name ∈ names, name ∈ table.scalars
    | .error e => e.isInternal = false := by
  unfold selectedColumns
  cases selection? with
  | none => exact fun _ mem => mem
  | some selection =>
    dsimp only
    by_cases whole : (selection.attributes.isEmpty && !selection.relationships.isEmpty) = true
    · rw [if_pos whole]
      exact fun _ mem => mem
    · rw [if_neg whole]
      cases hinfo : schema.resourceType table.resourceType with
      | error e => rfl
      | ok info =>
        simp only [CompileError.ofLookup, bind, Except.bind]
        cases hwanted : wantedColumns table.resourceType info selection.attributes with
        | error e => exact not_internal_of_wantedColumns hwanted
        | ok wanted =>
          cases wanted with
          | none => exact fun _ mem => mem
          | some wanted => exact fun _ mem => (List.mem_filter.mp mem).1

/-- A source provides the columns of a table: it is the table, or it selects all its columns. -/
def Provides (provider : Source) (table : Table) : Prop :=
  match provider with
  | .table t => t = table
  | .derived s => ∀ c ∈ table.columns, (c, none) ∈ s.columnSelectors

theorem Provides.getColumn {provider : Source} (provides : Provides provider table)
    {name : String} (mem : name ∈ table.scalars) :
    ∃ c, provider.getColumn name (some table.tableAlias) = .ok c := by
  have listed : table.scalar name ∈ table.columns :=
    List.mem_append_left _ (List.mem_map_of_mem mem)
  cases provider with
  | table t =>
    obtain rfl : t = table := provides
    exact ⟨t.scalar name, by simp [Source.getColumn, Source.findColumn?, Table.findColumn?, mem]⟩
  | derived s =>
    obtain ⟨found, hfound⟩ := Sql.Select.findColumn?_of_selected listed (provides _ listed)
    refine ⟨found, ?_⟩
    have named : (table.scalar name).name = name := rfl
    rw [named] at hfound
    simp [Source.getColumn, Source.findColumn?, hfound]

theorem columnSelectors_ok {provider : Source} (provides : Provides provider table)
    {names : List String} (stored : ∀ name ∈ names, name ∈ table.scalars) :
    ∃ selectors, columnSelectors table provider names = .ok selectors := by
  induction names with
  | nil => exact ⟨[], rfl⟩
  | cons name rest ih =>
    obtain ⟨c, hc⟩ := provides.getColumn (stored name List.mem_cons_self)
    obtain ⟨others, hothers⟩ := ih fun other mem => stored other (List.mem_cons_of_mem _ mem)
    refine ⟨.column c none :: others, ?_⟩
    simp only [columnSelectors, hc, hothers]
    rfl

theorem ensures_selectors_bind {β : Type} {provider : Source} {selection? : Option Selection}
    {next : List Selector → Compile β} {R : β → Progress → Prop}
    (provides : Provides provider table)
    (rest : ∀ columns, Selects schema table provider selection? columns →
      Ensures (next columns) p R) :
    Ensures (selectors schema table provider selection? >>= next) p R := by
  have spec := selectedColumns_spec schema table selection?
  unfold selectors
  rw [bind_assoc]
  refine ensures_lift_bind (fun e h => ?_) fun names hnames => ?_
  · rw [h] at spec
    exact spec
  · rw [hnames] at spec
    obtain ⟨columns, hcolumns⟩ := columnSelectors_ok provides spec
    exact ensures_tree_bind hcolumns (rest columns ⟨names, hnames, hcolumns⟩)

/-! ### Joins -/

theorem declaresAny_eq_false {a : TableAlias} {entries : List Sql.Entry}
    (h : ∀ entry ∈ entries, ∃ t, entry.source = .table t ∧ t.tableAlias ≠ a) :
    Source.declaresAny a entries = false := by
  induction entries with
  | nil => rfl
  | cons entry rest ih =>
    obtain ⟨t, ht, ne⟩ := h entry List.mem_cons_self
    obtain ⟨source, join?, selectors⟩ := entry
    obtain rfl : source = .table t := ht
    have others := ih fun other mem => h other (List.mem_cons_of_mem _ mem)
    simp [Source.declaresAny, Source.declares, ne, others]

/-- A derived table over a table can be joined by the key columns, because every alias inside it is
fresh. -/
theorem make_of_columnsQuery {source base : Table} {outer inner : Column} {last : Progress}
    {condition? : Option Condition} {n : Nat} {names : Names} {enclosing : TableAlias}
    (quiet : Progress.Quiet ⟨names, Draft.empty⟩ last) (houter : outer ∈ source.columns)
    (hinner : inner ∈ base.columns) (old : source.tableAlias.index ≤ n)
    (fresh : n < base.tableAlias.index) (later : n ≤ names.tables)
    (around : n < enclosing.index) :
    Sql.JoinOn.make .left
        (.derived { plainQuery base .columns last.draft condition? with alias? := some enclosing })
        outer inner = .ok ⟨.left, outer, inner⟩ := by
  obtain ⟨more, hmore, tables⟩ := quiet.joins
  have howns : Source.owns (.derived { plainQuery base .columns last.draft condition? with
      alias? := some enclosing }) inner = true := by
    simp [Source.owns, Table.alias?_of_mem_columns hinner, plainQuery, Draft.entries,
      Source.declares, Source.declaresAny]
  -- The outer column is older than every table inside the derived table.
  have inside : Source.declaresAny source.tableAlias
      (last.draft.entries (.table base) (QueryShape.columns.selectors base)) = false := by
    refine declaresAny_eq_false fun entry mem => ?_
    rcases List.mem_cons.mp mem with rfl | mem
    · refine ⟨base, rfl, fun same => ?_⟩
      rw [same] at fresh
      omega
    · obtain ⟨join, hjoin, rfl⟩ := List.mem_map.mp mem
      rw [hmore] at hjoin
      obtain ⟨t, ht, lt⟩ := tables join (by simpa [Draft.empty] using hjoin)
      refine ⟨t, ht, fun same => ?_⟩
      rw [same] at lt
      simp only at lt
      omega
  have hfree : Source.owns (.derived { plainQuery base .columns last.draft condition? with
      alias? := some enclosing }) outer = false := by
    have ne : enclosing ≠ source.tableAlias := by
      intro same
      rw [same] at around
      omega
    simp only [Source.owns, Table.alias?_of_mem_columns houter, plainQuery, Source.declares, inside]
    simp [ne]
  simp [Sql.JoinOn.make, howns, hfree]

theorem ensures_joinFiltered (fits : p.Fits schema start)
    (known : p.draft.Knows schema start table) (name : String) (filter : Filter) :
    Ensures (joinFiltered schema table name filter) p (fun result q =>
      RelatedAt schema p table name (some filter) result.1 result.2 q) := by
  unfold joinFiltered
  refine ensures_lookup_bind fun relationship hrel => ?_
  by_cases toMany : relationship.isToMany = true
  · rw [if_pos toMany]
    refine ensures_lookup_bind fun key hkey => ?_
    refine ensures_newTable_bind fun base hbase => ?_
    obtain ⟨leads, named, baseInfo, stores⟩ := Schema.stores_of_table hbase
    obtain ⟨tableInfo, stored⟩ := known.stored
    obtain ⟨outer, houter, inner, hinner, hcolumns, -⟩ :=
      keyColumns_ok hkey hrel stored stores leads
    have le : base.tableAlias.index ≤ p.names.tables + 1 :=
      Sql.TableAlias.index_le named
    have fresh : p.names.tables < base.tableAlias.index := by
      rw [named]
      exact Nat.lt_succ_self _
    have old := fits.alias_le_of_knows known
    refine (ensures_queryTable (Filter.ensures_compileOption (some filter) (.ofTable le)
      (Draft.knows_start stores)) fun _ _ h => Filter.OptionBecomes.quiet _ h).bind ?_
    rintro select _ ⟨condition?, last, below, rfl, rfl⟩
    have quiet := Filter.OptionBecomes.quiet _ below
    have names := quiet.names
    simp only at names
    refine ensures_newAlias_bind ?_
    -- The table has its identifier, so the derived table selects at least one column.
    have derived : Source.ofSelect (plainQuery base .columns last.draft condition?)
        ⟨last.names.tables + 1⟩ = .ok (.derived { plainQuery base .columns last.draft condition?
          with alias? := some ⟨last.names.tables + 1⟩ }) := by
      have columns : (plainQuery base .columns last.draft condition?).columnSelectors
          = base.columns.map (fun c => (c, none)) :=
        @columnSelectors_columnsQuery base last.draft condition? ⟨0⟩ quiet.selectors
      unfold Source.ofSelect
      rw [columns, if_neg ?_]
      simpa using columns_ne_nil ⟨baseInfo, stores⟩
    refine ensures_tree_bind derived ?_
    refine ensures_changeDraft_bind ?_
    refine ensures_tree_bind hcolumns ?_
    refine ensures_tree_bind (make_of_columnsQuery quiet houter hinner old fresh ?_ ?_) ?_
    · exact Nat.le_succ _
    · simp only
      omega
    refine ensures_changeDraft_bind ?_
    refine ensures_pure ⟨_, ⟨key, outer, inner, condition?, last,
      ⟨⟨relationship, hrel, ?_⟩, hkey, hcolumns⟩, named, below, rfl, rfl⟩, rfl⟩
    rw [named]
    exact hbase
  · rw [if_neg toMany]
    exact ensures_fail rfl

theorem ensures_joinRelated (fits : p.Fits schema start)
    (known : p.draft.Knows schema start table) (name : String) (filter? : Option Filter) :
    Ensures (joinRelated schema table name filter?) p (fun result q =>
      RelatedAt schema p table name filter? result.1 result.2 q) := by
  cases filter? with
  | some filter => exact ensures_joinFiltered fits known name filter
  | none =>
    refine (ensures_joinRelationship fits known name).bind fun target q reaches => ?_
    exact ensures_pure ⟨reaches, rfl⟩

/-- What a relationship leads to is provided under an alias. -/
theorem RelatedAt.provides {q : Progress} {name : String} {filter? : Option Filter}
    {target : Table} {provider : Source}
    (h : RelatedAt schema p table name filter? target provider q) :
    Provides provider target ∧ ∃ a, provider.alias? = some a := by
  cases filter? with
  | some filter =>
    obtain ⟨derived, ⟨key, outer, inner, condition?, last, -, -, below, rfl, -⟩, rfl⟩ := h
    refine ⟨fun c mem => ?_, _, rfl⟩
    rw [columnSelectors_columnsQuery (Filter.OptionBecomes.quiet _ below).selectors]
    exact List.mem_map_of_mem mem
  | none =>
    obtain ⟨-, rfl⟩ := h
    exact ⟨rfl, _, rfl⟩

theorem ensures_joinLayer (fits : p.Fits schema start)
    (known : p.draft.Knows schema start table) (name : String) (layer : Layer) :
    Ensures (joinLayer schema table name layer) p (fun result q =>
      LayerAt schema p table name layer result.1 result.2 q) := by
  unfold joinLayer
  refine ensures_lookup_bind fun relationship hrel => ?_
  refine (ensures_joinRelated fits known name layer.filter?).bind ?_
  rintro ⟨target, provider⟩ middle related
  obtain ⟨provides, a, named⟩ := related.provides
  obtain ⟨-, joined, reached, mem⟩ := related.fits fits known
  refine ensures_selectors_bind provides fun columns selects => ?_
  have selecting : selectFrom provider columns = changeDraft (·.addSelectors a columns) := by
    simp only [selectFrom, named]
  rw [selecting]
  refine ensures_changeDraft_bind ?_
  have selected := joined.addSelectors (a := a) (selects.visible mem named)
  have reached' := joined.knows_extends (.addSelectors middle a columns) reached
  refine (ensures_orderTerms selected reached' _).bind fun own q orders => ?_
  obtain ⟨info, stores⟩ := reached.stored
  obtain ⟨id, -, hid, -⟩ := stores.idColumn_ok
  by_cases toMany : relationship.isToMany = true
  · rw [if_pos toMany]
    refine ensures_tree_bind hid ?_
    refine ensures_pure ⟨relationship, provider, a, middle, columns, own, id, hrel, related, named,
      selects, orders, hid, ?_⟩
    rw [if_pos toMany]
  · rw [if_neg toMany]
    refine ensures_pure ⟨relationship, provider, a, middle, columns, own, id, hrel, related, named,
      selects, orders, hid, ?_⟩
    rw [if_neg toMany, List.append_nil]

end Compile

namespace Fetch

mutual

/-- **Compiling a tree of relationships** from a known table does what it becomes, or fails for a
reason that lies in the request. -/
theorem ensures_compile {table : Table} {p : Progress} :
    (fetch : Fetch) → p.Fits schema start → p.draft.Knows schema start table →
      Compile.Ensures (fetch.compile schema table) p
        (fun terms q => fetch.Becomes schema table p terms q)
  | mk _ relationships, fits, known => by
    simp only [Fetch.compile, Becomes]
    exact ensures_compileAll relationships fits known

theorem ensures_compileAll {table : Table} {p : Progress} :
    (relationships : List (String × Fetch)) → p.Fits schema start →
      p.draft.Knows schema start table →
      Compile.Ensures (compileAll schema table relationships) p
        (fun terms q => AllBecome schema table relationships p terms q)
  | [], _, _ => by
    simp only [compileAll, AllBecome]
    exact Compile.ensures_pure ⟨rfl, rfl⟩
  | (name, fetch) :: rest, fits, known => by
    simp only [compileAll, AllBecome]
    refine (Compile.ensures_joinLayer fits known name fetch.layer).bind ?_
    rintro ⟨target, own⟩ r layer
    obtain ⟨joining, joined, reached, -⟩ := layer.grows fits known
    refine (ensures_compile fetch joined reached).bind fun below s inside => ?_
    obtain ⟨following, followed, -⟩ := Becomes.grows fetch inside joined reached
    have back := fits.knows_extends (joining.trans following) known
    refine (ensures_compileAll rest followed back).bind fun after q others => ?_
    exact Compile.ensures_pure ⟨target, own, below, after, r, s, layer, inside, others, rfl⟩

end

end Fetch

end Compiling

end ResourceQuery
