import ResourceQuery.Proofs.Compile.FetchContract
import ResourceQuery.Proofs.Compile.PageColumns

/-!
# Pages and the queries around them

A page becomes a derived table when related resources multiply its rows.  Everything that was joined
for the page is then hidden inside it, and the order of the query around refers to the columns that
the page selects.

## Main Definitions

- `Compile.PrimaryPage.Stands`: what holds of a page when it is complete.
- `Compile.OuterOrders`: the criteria of the query around a page.
- `Compile.PageAt`: the query that returns a page.

## Main Statements

- `Compile.PrimaryPage.Stands.closed`: the page can be used as a derived table.
- `Compile.PrimaryPage.Stands.outer_fits`: the query around the page starts with the invariant.
- `Compile.ensures_pageQuery`: the query of a page is finished and well scoped, or there is a
  reason in the request why it cannot be.
-/

namespace ResourceQuery

open Sql (Table Source Select Selector Column Condition OrderTerm Remap TableAlias Limit)

namespace Compile

/-! ### Complete pages -/

/-- **A page is complete**: it fits, nothing was moved or selected yet, and its criteria lead to
columns of its table or to columns that have been noted. -/
structure PrimaryPage.Stands (schema : Schema) (page : PrimaryPage) (names : Names) : Prop where
  stored : ∃ info, schema.Stores info page.table
  fits : Progress.Fits schema (.table page.table) ⟨names, page.draft⟩
  unmoved : page.draft.remap = Remap.empty
  unselected : page.draft.selectors = []
  restricted : Condition.OptionScoped (page.draft.sources (.table page.table)) page.filter?
  leads : ∀ term ∈ page.terms, Progress.Leads ⟨names, page.draft⟩ (.table page.table) term
  noted : ∀ c descending, ⟨.column c, descending⟩ ∈ page.terms →
    c ∈ page.table.columns ∨ c ∈ page.draft.sortColumns

namespace PrimaryPage.Stands

variable {schema : Schema} {page : PrimaryPage} {names : Names}

theorem aliased (stands : page.Stands schema names) :
    ∀ join ∈ page.draft.joins, ∃ a, join.source.alias? = some a ∧ a.index ≤ names.tables :=
  fun join mem => stands.fits.aliased join.source (List.mem_cons_of_mem _ (List.mem_map_of_mem mem))

/-- A column noted for the order is visible in the page. -/
theorem visible_of_noted (stands : page.Stands schema names) {c : Column}
    (noted : c ∈ page.draft.sortColumns) :
    c.VisibleIn (page.draft.sources (.table page.table)) := by
  have resolves := stands.fits.sorted c noted
  rw [stands.unmoved] at resolves
  have visible := resolves.led_visible stands.fits.distinct (List.Subset.refl _)
  rwa [Remap.led_empty] at visible

/-- Selecting the columns for the order keeps the invariant. -/
theorem fits_fullDraft (stands : page.Stands schema names) :
    Progress.Fits schema (.table page.table) ⟨names, page.fullDraft⟩ := by
  have step : ∀ (entries : List (TableAlias × Selector)) (d : Draft),
      Progress.Fits schema (.table page.table) ⟨names, d⟩ →
      (∀ entry ∈ entries, ∃ c rename?, entry.2 = .column c rename?
        ∧ c.VisibleIn (d.sources (.table page.table))) →
      Progress.Fits schema (.table page.table)
        ⟨names, { d with selectors := appendAll entries d.selectors }⟩ := by
    intro entries
    induction entries with
    | nil => exact fun d fits _ => fits
    | cons entry rest ih =>
      intro d fits visible
      refine ih (d.addSelectors entry.1 [entry.2]) (fits.addSelectors ?_)
        (fun other mem => visible other (List.mem_cons_of_mem _ mem))
      intro selector listed
      rw [List.mem_singleton] at listed
      rw [listed]
      exact visible entry List.mem_cons_self
  refine step page.sortEntries page.draft stands.fits fun entry mem => ?_
  obtain ⟨c, rename?, noted, -, hentry⟩ := eq_of_mem_sortSelectors mem
  exact ⟨c, rename?, hentry, stands.visible_of_noted noted⟩

/-- The query of a page is finished as it stands. -/
theorem select_ok (stands : page.Stands schema names) (a : TableAlias) :
    page.select = .ok { page.finished a with alias? := none } := by
  rw [select_eq]
  exact Draft.assemble_of_unmoved (d := page.fullDraft) stands.unmoved _ _ _ _ _

/-- **A complete page can be used as a derived table.** -/
theorem closed (stands : page.Stands schema names) (a : TableAlias) :
    (Source.derived (page.finished a)).WellScoped := by
  obtain ⟨info, stores⟩ := stands.stored
  have fits := stands.fits_fullDraft
  obtain ⟨settled, settles, order, -⟩ := Draft.assemble_eq fits [] stands.restricted stands.leads
    (some page.limit)
  have same : settled = page.terms := by
    have unmoved : page.fullDraft.remap = Remap.empty := stands.unmoved
    simp only [unmoved] at settles
    exact OrderTerm.eq_of_settles_empty settles
  rw [same] at order
  simp only [Source.WellScoped]
  refine ⟨?_, ?_, ?_⟩
  · have unmoved : page.fullDraft.remap = Remap.empty := stands.unmoved
    unfold finished
    rw [← Draft.finishedEntries_of_unmoved unmoved]
    refine Draft.wellScoped_finished fits ?_ ?_ ?_
    · refine Selector.allScoped_of_columns fun selector listed => ?_
      obtain ⟨c, hc, rfl⟩ := List.mem_map.mp listed
      refine ⟨c, none, rfl, .table page.table, ?_, rfl, Table.alias?_of_mem_columns hc, hc⟩
      exact List.mem_append_left _ List.mem_cons_self
    · rw [List.append_nil]
      exact stands.restricted
    · rw [List.append_nil]
      exact order
  · obtain ⟨c, hc, -⟩ := stores.idColumn_ok
    exact List.ne_nil_of_mem (page.mem_columnSelectors_of_table a hc)
  · refine nodup_outputNames stands.unselected stores.distinct ?_ ?_ a
    · intro join mem
      obtain ⟨b, hb, -⟩ := stands.aliased join mem
      exact ⟨b, hb⟩
    · have distinct := stands.fits.distinct
      rw [Draft.sources, List.map_cons, List.nodup_cons, List.map_map] at distinct
      exact distinct.2

end PrimaryPage.Stands

/-! ### The draft around a page -/

/-- Tables are moved one after the other. -/
theorem foldl_move (aliases : List TableAlias) (enclosing : TableAlias) (d : Draft) :
    ∃ m : Remap, aliases.foldl (fun d a => d.move a enclosing) d = { d with remap := m }
      ∧ ∀ a, m.get? a = if a ∈ aliases then some enclosing else d.remap.get? a := by
  induction aliases generalizing d with
  | nil => exact ⟨d.remap, rfl, fun a => by simp⟩
  | cons former rest ih =>
    obtain ⟨m, hm, get⟩ := ih (d.move former enclosing)
    refine ⟨m, ?_, fun a => ?_⟩
    · rw [List.foldl_cons, hm]
      rfl
    · rw [get, Draft.move, Sql.Remap.get?_insert]
      grind

namespace PrimaryPage

variable {schema : Schema} {page : PrimaryPage} {names : Names}

/-- The query around a page has nothing but moved tables at first. -/
theorem outerDraft_eq (page : PrimaryPage) (enclosing : TableAlias) :
    ∃ m : Remap, page.outerDraft enclosing = { Draft.empty with remap := m }
      ∧ ∀ a, m.get? a = if a ∈ page.table.tableAlias :: page.draft.joinAliases
        then some enclosing else none :=
  foldl_move (page.table.tableAlias :: page.draft.joinAliases) enclosing Draft.empty

theorem mem_joinAliases {a : TableAlias} :
    a ∈ page.draft.joinAliases ↔ ∃ join ∈ page.draft.joins, join.source.alias? = some a :=
  List.mem_filterMap

namespace Stands

/-- **The query around a page starts with the invariant.** -/
theorem outer_fits (stands : page.Stands schema names) (parameters : Nat) :
    Progress.Fits schema (.derived (page.finished ⟨names.tables + 1⟩))
      ⟨⟨names.tables + 1, parameters⟩, page.outerDraft ⟨names.tables + 1⟩⟩ := by
  obtain ⟨m, hm, get⟩ := page.outerDraft_eq ⟨names.tables + 1⟩
  -- All moved aliases are older than the alias of the derived table.
  have old : ∀ a ∈ page.table.tableAlias :: page.draft.joinAliases, a.index ≤ names.tables := by
    intro a mem
    rcases List.mem_cons.mp mem with rfl | mem
    · exact stands.fits.bounded.sources (.table page.table) List.mem_cons_self _ rfl
    · obtain ⟨join, hjoin, named⟩ := mem_joinAliases.mp mem
      obtain ⟨b, hb, le⟩ := stands.aliased join hjoin
      rw [named] at hb
      cases hb
      exact le
  rw [hm]
  refine ⟨?_, by simp [Draft.sources, Draft.empty], ?_, ?_, trivial, ?_, ?_, ?_⟩
  · intro s mem
    simp only [Draft.sources, Draft.empty, List.map_nil, List.mem_singleton] at mem
    subst mem
    exact ⟨⟨names.tables + 1⟩, rfl, Nat.le_refl _⟩
  · intro a e hmove
    simp only [get] at hmove
    split at hmove
    · rename_i listed
      have le := old a listed
      refine ⟨Nat.le_succ_of_le le, fun s mem same => ?_⟩
      simp only [Draft.sources, Draft.empty, List.map_nil, List.mem_singleton] at mem
      subst mem
      cases same
      exact absurd le (Nat.not_succ_le_self _)
    · cases hmove
  · intro s mem
    simp only [Draft.sources, Draft.empty, List.map_nil, List.mem_singleton] at mem
    subst mem
    exact stands.closed _
  · intro a name target found
    cases found
  · intro entry mem
    cases mem
  · intro c mem
    cases mem

/-- The table of a page is known in the query around it. -/
theorem outer_knows (stands : page.Stands schema names) (enclosing : TableAlias) :
    (page.outerDraft enclosing).Knows schema (.derived (page.finished enclosing)) page.table := by
  obtain ⟨m, hm, get⟩ := page.outerDraft_eq enclosing
  refine ⟨stands.stored, .inr ⟨enclosing, page.finished enclosing, ?_, List.mem_cons_self, rfl, rfl,
    fun c mem => page.mem_columnSelectors_of_table enclosing mem⟩⟩
  rw [hm]
  simp [get]

/-- A criterion by column of a page leads to the page in the query around it. -/
theorem outer_resolves (stands : page.Stands schema names) (enclosing : TableAlias) {c : Column}
    {descending : Bool} (mem : ⟨.column c, descending⟩ ∈ page.terms) :
    (page.outerDraft enclosing).remap.Resolves
      ((page.outerDraft enclosing).sources (.derived (page.finished enclosing))) c := by
  obtain ⟨m, hm, get⟩ := page.outerDraft_eq enclosing
  -- Somewhere in the page the column is selected, from a source of its alias.
  have selected : ∃ a rename?, c.alias? = some a
      ∧ a ∈ page.table.tableAlias :: page.draft.joinAliases
      ∧ (c, rename?) ∈ (page.finished enclosing).columnSelectors := by
    rcases stands.noted c descending mem with own | noted
    · exact ⟨page.table.tableAlias, none, Table.alias?_of_mem_columns own, List.mem_cons_self,
        page.mem_columnSelectors_of_table enclosing own⟩
    · obtain ⟨source, hsource, isNamed, same, exposes⟩ := stands.visible_of_noted noted
      obtain ⟨a, ha⟩ := Option.isSome_iff_exists.mp isNamed
      rcases List.mem_cons.mp hsource with rfl | joined
      · exact ⟨page.table.tableAlias, none, same, List.mem_cons_self,
          page.mem_columnSelectors_of_table enclosing exposes⟩
      · obtain ⟨join, hjoin, rfl⟩ := List.mem_map.mp joined
        obtain ⟨rename?, hmem⟩ := @mem_columnSelectors page stands.unselected a enclosing c join
          noted (same.trans ha) hjoin ha
        exact ⟨a, rename?, same.trans ha,
          List.mem_cons_of_mem _ (mem_joinAliases.mpr ⟨join, hjoin, ha⟩), hmem⟩
  obtain ⟨a, rename?, ha, listed, hmem⟩ := selected
  refine ⟨a, ha, .derived (page.finished enclosing), List.mem_cons_self, ?_⟩
  rw [hm]
  simp only [get, if_pos listed]
  refine ⟨rfl, ?_⟩
  rw [Source.findColumn?, Select.findColumn?, Option.isSome_map, List.find?_isSome]
  refine ⟨(c, rename?), hmem, ?_⟩
  have named : c.refersTo c.name (some a) = true := by
    cases c <;> simp_all [Column.refersTo, Column.isNamed]
  simp [Select.provides, named]

end Stands

end PrimaryPage

/-! ### The query around a page -/

/-- The criteria of the query around a page: those by column are kept, those by number are compiled
again. -/
def OuterOrders (schema : Schema) (table : Table) :
    List OrderTerm → List SortElement → Progress → List OrderTerm → Progress → Prop
  | term :: terms, element :: sort, p, outer, q =>
    ∃ first others middle,
      (match term.target with
        | .column _ => first = term ∧ middle = p
        | .count _ => element.Becomes schema table p first middle)
      ∧ OuterOrders schema table terms sort middle others q ∧ outer = first :: others
  | _, _, p, outer, q => outer = [] ∧ q = p

/-- **The query around a page**, to which everything to be followed is joined. -/
def PushedDown (schema : Schema) (page : PrimaryPage) (names : Names) (fetch : Fetch)
    (sort : List SortElement) (select : Select) : Prop :=
  ∃ parameters outer columns below middle last settled,
    OuterOrders schema page.table page.terms sort
        ⟨⟨names.tables + 1, parameters⟩, page.outerDraft ⟨names.tables + 1⟩⟩ outer middle
      ∧ Selects schema page.table (.derived (page.finished ⟨names.tables + 1⟩))
        fetch.layer.selection? columns
      ∧ fetch.Becomes schema page.table middle below last
      ∧ List.Forall₂ (OrderTerm.Settles last.draft.remap
          (last.draft.sources (.derived (page.finished ⟨names.tables + 1⟩))))
        (outer ++ below) settled
      ∧ select = ⟨last.draft.finishedEntries (.derived (page.finished ⟨names.tables + 1⟩)) columns,
        none, orderOf settled, none, none⟩

section PushDown

variable {schema : Schema} {start : Source} {p q : Progress} {table : Table}

theorem OuterOrders.quiet {terms outer : List OrderTerm} {sort : List SortElement}
    (h : OuterOrders schema table terms sort p outer q) : p.Quiet q := by
  induction terms generalizing p outer sort with
  | nil =>
    rw [h.2]
    exact .refl p
  | cons term rest ih =>
    cases sort with
    | nil =>
      rw [h.2]
      exact .refl p
    | cons element sort =>
      obtain ⟨first, others, middle, hfirst, after, -⟩ := h
      split at hfirst
      · rw [hfirst.2] at after
        exact ih after
      · exact hfirst.quiet.trans (ih after)

/-- The criteria of the query around a page keep the invariant and lead to sources, if those by
column do. -/
theorem OuterOrders.fits {terms outer : List OrderTerm} {sort : List SortElement}
    (h : OuterOrders schema table terms sort p outer q) (fits : p.Fits schema start)
    (known : p.draft.Knows schema start table)
    (resolves : ∀ c descending, ⟨.column c, descending⟩ ∈ terms →
      p.draft.remap.Resolves (p.draft.sources start) c) :
    q.Fits schema start ∧ ∀ term ∈ outer, q.Leads start term := by
  induction terms generalizing p outer sort with
  | nil =>
    obtain ⟨rfl, rfl⟩ := h
    exact ⟨fits, by simp⟩
  | cons term rest ih =>
    cases sort with
    | nil =>
      obtain ⟨rfl, rfl⟩ := h
      exact ⟨fits, by simp⟩
    | cons element sort =>
      obtain ⟨first, others, middle, hfirst, after, rfl⟩ := h
      have grown := after.quiet.toExtends
      obtain ⟨target, descending⟩ := term
      cases target with
      | column c =>
        obtain ⟨rfl, rfl⟩ := hfirst
        have hc := resolves c descending List.mem_cons_self
        obtain ⟨fits', leads⟩ := ih after fits known
          (fun d desc mem => resolves d desc (List.mem_cons_of_mem _ mem))
        refine ⟨fits', fun other mem => ?_⟩
        rcases List.mem_cons.mp mem with rfl | mem
        · exact .column (fits.resolves_extends grown hc)
        · exact leads other mem
      | count select =>
        have step : p.Extends middle := hfirst.quiet.toExtends
        obtain ⟨fits', lead⟩ := SortElement.Becomes.fits hfirst fits known
        obtain ⟨fits'', leads⟩ := ih after fits' (fits.knows_extends step known)
          (fun d desc mem => fits.resolves_extends step
            (resolves d desc (List.mem_cons_of_mem _ mem)))
        refine ⟨fits'', fun other mem => ?_⟩
        rcases List.mem_cons.mp mem with rfl | mem
        · exact lead.extends_ fits' grown
        · exact leads other mem

/-- When the criteria of the query around a page have been compiled, the invariant holds and the
table of the page is known. -/
theorem OuterOrders.sorted_fits {page : PrimaryPage} {names : Names} {parameters : Nat}
    {sort : List SortElement} {outer : List OrderTerm}
    (h : OuterOrders schema page.table page.terms sort
      ⟨⟨names.tables + 1, parameters⟩, page.outerDraft ⟨names.tables + 1⟩⟩ outer q)
    (stands : page.Stands schema names) :
    q.Fits schema (.derived (page.finished ⟨names.tables + 1⟩))
      ∧ q.draft.Knows schema (.derived (page.finished ⟨names.tables + 1⟩)) page.table := by
  have fits := stands.outer_fits parameters
  have known := stands.outer_knows ⟨names.tables + 1⟩
  obtain ⟨fits', -⟩ := h.fits fits known
    (fun c descending => stands.outer_resolves ⟨names.tables + 1⟩)
  exact ⟨fits', fits.knows_extends h.quiet.toExtends known⟩

theorem ensures_outerTerms (fits : p.Fits schema start)
    (known : p.draft.Knows schema start table) (terms : List OrderTerm)
    (sort : List SortElement) :
    Ensures (outerTerms schema table terms sort) p
      (fun outer q => OuterOrders schema table terms sort p outer q) := by
  induction terms generalizing p sort with
  | nil => exact ensures_pure ⟨rfl, rfl⟩
  | cons term rest ih =>
    cases sort with
    | nil => exact ensures_pure ⟨rfl, rfl⟩
    | cons element sort =>
      obtain ⟨target, descending⟩ := term
      cases target with
      | column c =>
        have kept : outerTerms schema table (⟨.column c, descending⟩ :: rest) (element :: sort)
            = outerTerms schema table rest sort >>= fun others =>
              pure (⟨.column c, descending⟩ :: others) := by
          simp only [outerTerms, pure_bind]
        rw [kept]
        refine (ih fits known sort).bind fun others q after => ?_
        exact ensures_pure ⟨_, others, p, ⟨rfl, rfl⟩, after, rfl⟩
      | count select =>
        unfold outerTerms
        refine (element.ensures_compile fits known).bind fun first middle hfirst => ?_
        have fits' := (hfirst.fits fits known).1
        have known' := fits.knows_extends hfirst.quiet.toExtends known
        refine (ih fits' known' sort).bind fun others q after => ?_
        exact ensures_pure ⟨first, others, middle, hfirst, after, rfl⟩

/-- The query around a complete page is finished and well scoped. -/
theorem ensures_pushDown {page : PrimaryPage} (stands : page.Stands schema p.names)
    (fetch : Fetch) (sort : List SortElement) :
    Ensures (pushDown schema page fetch sort) p (fun select _ =>
      select.WellScoped [] ∧ PushedDown schema page p.names fetch sort select) := by
  unfold pushDown
  refine ensures_tree_bind (stands.select_ok ⟨p.names.tables + 1⟩) ?_
  refine ensures_newAlias_bind ?_
  have derived : Source.ofSelect { page.finished ⟨p.names.tables + 1⟩ with alias? := none }
      ⟨p.names.tables + 1⟩ = .ok (.derived (page.finished ⟨p.names.tables + 1⟩)) := by
    have columns : (page.finished ⟨p.names.tables + 1⟩).columnSelectors ≠ [] := by
      have closed := stands.closed ⟨p.names.tables + 1⟩
      simp only [Source.WellScoped] at closed
      exact closed.2.1
    unfold Source.ofSelect
    rw [if_neg ?_]
    · rfl
    · exact fun none_ => columns (List.isEmpty_iff.mp none_)
  refine ensures_tree_bind derived ?_
  refine ensures_changeDraft_bind ?_
  -- From here on the query around the page is compiled, which starts from the derived table.
  have fits := stands.outer_fits p.names.parameters
  have known := stands.outer_knows ⟨p.names.tables + 1⟩
  have resolves := fun c descending => @PrimaryPage.Stands.outer_resolves schema page p.names stands
    ⟨p.names.tables + 1⟩ c descending
  refine (ensures_outerTerms fits known page.terms sort).bind fun outer middle orders => ?_
  obtain ⟨fits', leads⟩ := orders.fits fits known resolves
  have known' := fits.knows_extends orders.quiet.toExtends known
  have provides : Provides (.derived (page.finished ⟨p.names.tables + 1⟩)) page.table :=
    fun c mem => page.mem_columnSelectors_of_table _ mem
  refine ensures_selectors_bind provides fun columns selects => ?_
  refine (fetch.ensures_compile fits' known').bind fun below last follows => ?_
  obtain ⟨grown, fits'', leads'⟩ := Fetch.Becomes.grows fetch follows fits' known'
  refine ensures_draft_bind ?_
  have all : ∀ term ∈ outer ++ below,
      last.Leads (.derived (page.finished ⟨p.names.tables + 1⟩)) term := by
    intro term mem
    rcases List.mem_append.mp mem with mem | mem
    · exact (leads term mem).extends_ fits' grown
    · exact leads' term mem
  have unrestricted : Condition.OptionScoped
      (last.draft.sources (.derived (page.finished ⟨p.names.tables + 1⟩))) none := by
    simp only [Condition.OptionScoped]
  obtain ⟨settled, settles, order, finished⟩ := Draft.assemble_eq fits'' columns unrestricted all
    none
  refine ensures_tree finished ⟨?_, p.names.parameters, outer, columns, below, middle, last, settled,
    orders, selects, follows, settles, rfl⟩
  refine Draft.wellScoped_finished fits'' ?_ ?_ ?_
  · refine Selector.allScoped_of_columns (selects.visible ?_ rfl)
    exact List.mem_append_left _ List.mem_cons_self
  · rw [List.append_nil]
    exact unrestricted
  · rw [List.append_nil]
    exact order

end PushDown

/-! ### Whole statements -/

/-- **The query that returns a page**: everything is joined to a derived table of the page, if that
multiplies rows, or to the page itself. -/
def PageAt (schema : Schema) (table : Table) (fetch : Fetch) (sort : List SortElement)
    (p : Progress) (select : Select) : Prop :=
  ∃ condition? terms limit q r parameters,
    Filter.OptionBecomes schema table fetch.layer.filter? p condition? q
      ∧ Orders schema table sort q terms r
      ∧ (fetch.reachesToMany schema table.resourceType = .ok true
          ∧ PushedDown schema ⟨r.draft, table, condition?, terms, limit⟩
            ⟨r.names.tables, parameters⟩ fetch sort select
        ∨ ∃ columns below last settled,
          fetch.reachesToMany schema table.resourceType = .ok false
          ∧ Selects schema table (.table table) fetch.layer.selection? columns
          ∧ fetch.Becomes schema table ⟨⟨r.names.tables, parameters⟩, r.draft⟩ below last
          ∧ List.Forall₂ (OrderTerm.Settles last.draft.remap (last.draft.sources (.table table)))
            (terms ++ below) settled
          ∧ select = ⟨last.draft.finishedEntries (.table table) columns, condition?,
            orderOf settled, some limit, none⟩)

section Statements

variable {schema : Schema} {p : Progress} {table : Table}

theorem ensures_pagination (settings : QuerySettings) (page : Pagination) :
    Ensures (page.compile settings) p (fun _ q =>
      ∃ parameters, q = ⟨⟨p.names.tables, parameters⟩, p.draft⟩) := by
  unfold Pagination.compile
  dsimp only
  split
  · exact ensures_fail rfl
  · split
    · exact ensures_fail rfl
    · refine ensures_newParameter_bind ?_
      split
      · refine ensures_newParameter_bind ?_
        exact ensures_pure ⟨_, rfl⟩
      · exact ensures_pure ⟨_, rfl⟩

/-- **A page whose filter and sort have been compiled is complete.** -/
theorem PrimaryPage.stands {info : ResourceType} {names : Names} {filter? : Option Filter}
    {condition? : Option Condition} {sort : List SortElement} {terms : List OrderTerm}
    {q r : Progress} (stores : schema.Stores info table)
    (le : table.tableAlias.index ≤ names.tables)
    (restricts : Filter.OptionBecomes schema table filter? ⟨names, Draft.empty⟩ condition? q)
    (orders : Orders schema table sort q terms r) (limit : Limit) (parameters : Nat) :
    PrimaryPage.Stands schema ⟨r.draft, table, condition?, terms, limit⟩
      ⟨r.names.tables, parameters⟩ := by
  have fits : Progress.Fits schema (.table table) ⟨names, Draft.empty⟩ := .ofTable le
  have known : Draft.empty.Knows schema (.table table) table := Draft.knows_start stores
  have quiet := Filter.OptionBecomes.quiet filter? restricts
  have fits' := restricts.fits fits known
  have known' : q.draft.Knows schema (.table table) table := Draft.knows_start stores
  obtain ⟨fits'', leads⟩ := orders.fits fits' known'
  exact {
    stored := ⟨info, stores⟩
    fits := fits''.ofNames (Nat.le_refl _)
    unmoved := orders.quiet.remap.trans quiet.remap
    unselected := orders.quiet.selectors.trans quiet.selectors
    restricted := Filter.OptionBecomes.inScope filter? restricts fits known rfl
      (orders.quiet.toExtends.sources _)
    leads := leads
    noted := orders.noted fits' known' }

/-- **The query of a page is finished and well scoped**, or there is a reason in the request why it
cannot be. -/
theorem ensures_pageQuery {info : ResourceType} {names : Names} (settings : QuerySettings)
    (stores : schema.Stores info table) (le : table.tableAlias.index ≤ names.tables)
    (fetch : Fetch) (sort : List SortElement) (page : Pagination) :
    Ensures (pageQuery schema settings table fetch sort page) ⟨names, Draft.empty⟩
      (fun select _ => select.WellScoped []
        ∧ PageAt schema table fetch sort ⟨names, Draft.empty⟩ select) := by
  unfold pageQuery
  have fits : Progress.Fits schema (.table table) ⟨names, Draft.empty⟩ := .ofTable le
  have known : Draft.empty.Knows schema (.table table) table := Draft.knows_start stores
  refine (Filter.ensures_compileOption fetch.layer.filter? fits known).bind
    fun condition? q restricts => ?_
  have fits' := restricts.fits fits known
  have known' : q.draft.Knows schema (.table table) table := Draft.knows_start stores
  refine (ensures_orderTerms fits' known' sort).bind fun terms r orders => ?_
  obtain ⟨fits'', leads⟩ := orders.fits fits' known'
  -- The condition is fixed before anything is joined for the sort, and stays in scope.
  have visible : ∀ sources, r.draft.sources (.table table) ⊆ sources →
      Condition.OptionScoped sources condition? := by
    intro sources sub
    refine Filter.OptionBecomes.inScope fetch.layer.filter? restricts fits known rfl ?_
    exact List.Subset.trans (orders.quiet.toExtends.sources _) sub
  refine (ensures_pagination settings page).bind ?_
  rintro limit _ ⟨parameters, rfl⟩
  refine ensures_lookup_bind fun multiplies hmultiplies => ?_
  have fits'' : Progress.Fits schema (.table table) ⟨⟨r.names.tables, parameters⟩, r.draft⟩ :=
    fits''.ofNames (Nat.le_refl _)
  have leads : ∀ term ∈ terms, Progress.Leads ⟨⟨r.names.tables, parameters⟩, r.draft⟩
    (.table table) term := leads
  have known'' : r.draft.Knows schema (.table table) table := Draft.knows_start stores
  -- A page whose rows may be multiplied is moved into a derived table first.
  by_cases pushed : multiplies = true
  · rw [if_pos pushed]
    rw [pushed] at hmultiplies
    refine ensures_draft_bind ?_
    have stands := PrimaryPage.stands stores le restricts orders limit parameters
    refine (ensures_pushDown stands fetch sort).mono fun select _ h => ⟨h.1, ?_⟩
    exact ⟨condition?, terms, limit, q, r, parameters, restricts, orders, .inl ⟨hmultiplies, h.2⟩⟩
  · rw [if_neg pushed]
    rw [Bool.not_eq_true _ |>.mp pushed] at hmultiplies
    have provides : Provides (.table table) table := rfl
    refine ensures_selectors_bind provides fun columns selects => ?_
    refine (fetch.ensures_compile fits'' known'').bind fun below last follows => ?_
    obtain ⟨grown, fits', leads'⟩ := Fetch.Becomes.grows fetch follows fits'' known''
    refine ensures_draft_bind ?_
    have all : ∀ term ∈ terms ++ below, last.Leads (.table table) term := by
      intro term mem
      rcases List.mem_append.mp mem with mem | mem
      · exact (leads term mem).extends_ fits'' grown
      · exact leads' term mem
    have restricted := visible (last.draft.sources (.table table)) (grown.sources _)
    obtain ⟨settled, settles, order, finished⟩ := Draft.assemble_eq fits' columns restricted all
      (some limit)
    refine ensures_tree finished ⟨?_, condition?, terms, limit, q, r, parameters, restricts, orders,
      .inr ⟨columns, below, last, settled, hmultiplies, selects, follows, settles, rfl⟩⟩
    refine Draft.wellScoped_finished fits' ?_ ?_ ?_
    · refine Selector.allScoped_of_columns (selects.visible ?_ rfl)
      exact List.mem_append_left _ List.mem_cons_self
    · rw [List.append_nil]
      exact restricted
    · rw [List.append_nil]
      exact order

/-- The query of a request is finished and well scoped, or there is a reason in the request why it
cannot be. -/
theorem ensures_dataQuery (schema : Schema) (settings : QuerySettings) (request : Request) :
    Ensures (dataQuery schema settings request) Progress.start (fun select _ =>
      select.WellScoped [] ∧ ∃ table, schema.table request.resourceType ⟨1⟩ = .ok table
        ∧ PageAt schema table (Fetch.ofLayer request.layer)
          (request.layer.sort?.getD defaultSort) ⟨⟨1, 0⟩, Draft.empty⟩ select) := by
  unfold dataQuery
  refine ensures_newTable_bind fun table htable => ?_
  obtain ⟨-, named, info, stores⟩ := Schema.stores_of_table htable
  have le : table.tableAlias.index ≤ 1 :=
    Sql.TableAlias.index_le named
  refine (ensures_pageQuery settings stores le _ _ _).mono fun select _ h => ?_
  exact ⟨h.1, table, htable, h.2⟩

/-- The query that counts resources is finished and well scoped, or there is a reason in the filter
why it cannot be. -/
theorem ensures_countQuery (schema : Schema) (resourceType : String) (filter? : Option Filter)
    (p : Progress) :
    Ensures (countQuery schema resourceType filter?) p (fun select _ =>
      select.WellScoped [] ∧ ∃ table condition? last,
        schema.table resourceType ⟨p.names.tables + 1⟩ = .ok table
        ∧ Filter.OptionBecomes schema table filter?
          ⟨⟨p.names.tables + 1, p.names.parameters⟩, Draft.empty⟩ condition? last
        ∧ select = plainQuery table .count last.draft condition?) := by
  unfold countQuery
  refine ensures_newTable_bind fun table htable => ?_
  obtain ⟨-, named, info, stores⟩ := Schema.stores_of_table htable
  have le : table.tableAlias.index ≤ p.names.tables + 1 := Sql.TableAlias.index_le named
  refine (ensures_queryTable (Filter.ensures_compileOption filter? (.ofTable le)
    (Draft.knows_start stores)) fun _ _ h => Filter.OptionBecomes.quiet _ h).mono ?_
  rintro select _ ⟨condition?, last, restricts, rfl, -⟩
  exact ⟨restricts.wellScoped_plainQuery stores le, table, condition?, last, htable, restricts,
    rfl⟩

end Statements

end Compile

end ResourceQuery
