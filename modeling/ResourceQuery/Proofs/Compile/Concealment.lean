import ResourceQuery.Proofs.Compile.Constants
import ResourceQuery.Proofs.Compile.Soundness

/-!
# Constants stay out of the text

Requests that are alike have the same statements, except for the values of parameters.

## Main Definitions

- `Compile.PrimaryPage.erase`: a page without values.

## Main Statements

- `Fetch.Alike.lockstep`: what is fetched is joined in the same way.
- `Compile.lockstep_pushDown`: the queries around pages that differ only in values.
- `Request.Alike.same_statements`: requests that are alike have the same texts.
-/

namespace ResourceQuery

open Sql (Table Source Select Selector Column Condition OrderTerm TableAlias Limit Rendered)

/-! ### Relationships -/

namespace Compile

variable {schema : Schema}

/-- What is selected from a source does not depend on values or on filters. -/
theorem lockstep_selectors {table : Table} {source source' : Source}
    {selection? selection?' : Option Selection} (same : source.erase = source'.erase)
    (alike : Layer.SelectionAlike selection? selection?') :
    Lockstep Eq (selectors schema table source selection?)
      (selectors schema table source' selection?') := by
  have wanted : selectedColumns schema table selection?
      = selectedColumns schema table selection?' := by
    cases alike with
    | none => rfl
    | some layers =>
      simp only [selectedColumns]
      cases layers with
      | nil => rfl
      | cons => rfl
  have found : ∀ names,
      columnSelectors table source names = columnSelectors table source' names := by
    intro names
    induction names with
    | nil => rfl
    | cons name rest ih =>
      have column : source.getColumn name (some table.tableAlias)
          = source'.getColumn name (some table.tableAlias) := by
        simp only [Source.getColumn, ← source.findColumn?_erase, ← source.alias?_erase, same]
        rw [source'.findColumn?_erase, source'.alias?_erase]
      rw [columnSelectors, columnSelectors, column, ih]
  unfold selectors
  rw [wanted]
  refine (lockstep_lift_same _).bind_eq fun names => ?_
  rw [found]
  exact lockstep_tree _

/-- The rows that filters admit are joined in derived tables that differ only in values. -/
theorem lockstep_joinFiltered {source : Table} {name : String} {filter filter' : Filter}
    (alike : filter.Alike filter') :
    Lockstep (fun joined joined' => joined.1 = joined'.1 ∧ joined.2.erase = joined'.2.erase)
      (joinFiltered schema source name filter) (joinFiltered schema source name filter') := by
  refine (lockstep_lookup _).bind_eq fun relationship => ?_
  split
  · refine (lockstep_lookup _).bind_eq fun key => ?_
    refine (lockstep_newTable _ _).bind_eq fun base => ?_
    refine (Filter.OptionAlike.lockstep (.some alike)).queryTable.bind fun s s' same => ?_
    refine lockstep_newAlias.bind_eq fun enclosing => ?_
    refine (lockstep_tree_map Source.erase ?_).bind fun derived derived' derives => ?_
    · rw [← Source.ofSelect_erase, ← Source.ofSelect_erase, same]
    refine (lockstep_changeDraft fun d d' same => ?_).bind_eq fun _ => ?_
    · rw [Draft.move_erase, Draft.move_erase, same]
    refine (lockstep_tree _).bind_eq ?_
    rintro ⟨outer, inner⟩
    dsimp only
    rw [← Sql.JoinOn.make_erase _ derived, derives, Sql.JoinOn.make_erase]
    refine (lockstep_tree _).bind_eq fun on => ?_
    refine (lockstep_changeDraft fun d d' same => ?_).bind_eq fun _ => lockstep_pure ⟨rfl, derives⟩
    rw [Draft.addJoin_erase, Draft.addJoin_erase, same, Join.erase, Join.erase, derives]
  · exact lockstep_fail

/-- What is joined for a relationship: the same table, in sources that differ only in values. -/
theorem lockstep_joinRelated {source : Table} {name : String} {filter? filter?' : Option Filter}
    (alike : Filter.OptionAlike filter? filter?') :
    Lockstep (fun joined joined' => joined.1 = joined'.1 ∧ joined.2.erase = joined'.2.erase)
      (joinRelated schema source name filter?) (joinRelated schema source name filter?') := by
  cases alike with
  | none => exact (lockstep_joinRelationship _ _ _).bind_eq fun table => lockstep_pure ⟨rfl, rfl⟩
  | some inner => exact lockstep_joinFiltered inner

theorem lockstep_selectFrom {source source' : Source} (same : source.erase = source'.erase)
    (selectors : List Selector) :
    Lockstep Eq (selectFrom source selectors) (selectFrom source' selectors) := by
  unfold selectFrom
  rw [← source.alias?_erase, same, source'.alias?_erase]
  split
  · refine lockstep_changeDraft fun d d' same => ?_
    rw [Draft.addSelectors_erase, Draft.addSelectors_erase, same]
  · exact lockstep_pure rfl

/-- Layers that are alike are joined in the same way. -/
theorem lockstep_joinLayer {source : Table} {name : String} {layer layer' : Layer}
    (alike : layer.Alike layer') :
    Lockstep (fun joined joined' => joined.1 = joined'.1
        ∧ OrderTerm.eraseAll joined.2 = OrderTerm.eraseAll joined'.2)
      (joinLayer schema source name layer) (joinLayer schema source name layer') := by
  cases alike with
  | mk filters selections =>
    refine (lockstep_lookup _).bind_eq fun relationship => ?_
    refine (lockstep_joinRelated filters).bind ?_
    rintro ⟨table, provider⟩ ⟨_, provider'⟩ ⟨rfl, same⟩
    refine (lockstep_selectors same selections).bind_eq fun selectors => ?_
    refine (lockstep_selectFrom same selectors).bind_eq fun _ => ?_
    refine (lockstep_orderTerms _ _ _).bind fun terms terms' same => ?_
    split
    · refine (lockstep_tree _).bind_eq fun id => lockstep_pure ⟨rfl, ?_⟩
      rw [OrderTerm.eraseAll_append, OrderTerm.eraseAll_append, same]
    · exact lockstep_pure ⟨rfl, same⟩

end Compile

namespace Fetch

open Compile (Lockstep lockstep_pure)

variable {schema : Schema}

mutual

/-- **What is fetched is joined in the same way**, and adds the same criteria, up to values. -/
theorem Alike.lockstep {table : Table} : {fetch fetch' : Fetch} → fetch.Alike fetch' →
    Lockstep (fun terms terms' => OrderTerm.eraseAll terms = OrderTerm.eraseAll terms')
      (fetch.compile schema table) (fetch'.compile schema table)
  | _, _, .mk _ below => by
    rw [compile, compile]
    exact AllAlike.lockstep below

theorem AllAlike.lockstep {table : Table} : {relationships relationships' : List (String × Fetch)} →
    AllAlike relationships relationships' →
    Lockstep (fun terms terms' => OrderTerm.eraseAll terms = OrderTerm.eraseAll terms')
      (compileAll schema table relationships) (compileAll schema table relationships')
  | _, _, .nil => by
    rw [compileAll]
    exact lockstep_pure rfl
  | _, _, .cons first others => by
    rw [compileAll, compileAll]
    refine (Compile.lockstep_joinLayer first.layers).bind ?_
    rintro ⟨target, terms⟩ ⟨_, terms'⟩ ⟨rfl, own⟩
    refine (Alike.lockstep first).bind fun below below' inside => ?_
    refine (AllAlike.lockstep others).bind fun after after' rest => lockstep_pure ?_
    simp only [OrderTerm.eraseAll_append, own, inside, rest]

end

mutual

/-- What is fetched multiplies rows or not, whatever the filters are. -/
theorem Alike.reachesToMany : {fetch fetch' : Fetch} → fetch.Alike fetch' →
    ∀ resourceType, fetch.reachesToMany schema resourceType
      = fetch'.reachesToMany schema resourceType
  | _, _, .mk _ below, resourceType => by
    rw [Fetch.reachesToMany, Fetch.reachesToMany, AllAlike.anyToMany below]

theorem AllAlike.anyToMany : {relationships relationships' : List (String × Fetch)} →
    AllAlike relationships relationships' →
    ∀ resourceType, Fetch.anyToMany schema resourceType relationships
      = Fetch.anyToMany schema resourceType relationships'
  | _, _, .nil, _ => rfl
  | _, _, .cons first others, resourceType => by
    simp only [Fetch.anyToMany, Alike.reachesToMany first, AllAlike.anyToMany others]

end

end Fetch

/-! ### Pages -/

namespace Compile

variable {schema : Schema} {settings : QuerySettings}

/-- A number is given a parameter, whatever it is. -/
theorem lockstep_newNumber (m n : Int64) :
    Lockstep (fun p p' => p.erase = p'.erase) (newParameter (.int m)) (newParameter (.int n)) :=
  lockstep_newParameter rfl

/-- Pages of any size differ only in values, if both are the first or neither is. -/
theorem lockstep_pagination {page page' : Pagination}
    (later : 1 < page.pageNumber ↔ 1 < page'.pageNumber) :
    Lockstep (fun limit limit' => limit.erase = limit'.erase) (page.compile settings)
      (page'.compile settings) := by
  refine Lockstep.ite_fail (Lockstep.ite_fail ?_)
  refine (lockstep_newNumber _ _).bind fun count count' same => ?_
  by_cases first : 1 < page.pageNumber
  · rw [if_pos first, if_pos (later.mp first)]
    refine (lockstep_newNumber _ _).bind fun offset offset' skips => lockstep_pure ?_
    simp only [Limit.erase, Option.map_some, same, skips]
  · rw [if_neg first, if_neg (mt later.mpr first)]
    refine lockstep_pure ?_
    simp only [Limit.erase, Option.map_none, same]

namespace PrimaryPage

/-- A page without values. -/
def erase (page : PrimaryPage) : PrimaryPage :=
  ⟨page.draft.erase, page.table, Condition.eraseOption page.filter?, OrderTerm.eraseAll page.terms,
    page.limit.erase⟩

/-- A page is selected as if there were no values. -/
theorem select_erase (page : PrimaryPage) : page.erase.select = Select.erase <$> page.select := by
  have fold : ∀ (entries : List (TableAlias × Selector)) (d : Draft),
      entries.foldl (fun d s => d.addSelectors s.1 [s.2]) d.erase
        = (entries.foldl (fun d s => d.addSelectors s.1 [s.2]) d).erase := by
    intro entries
    induction entries with
    | nil => exact fun d => rfl
    | cons entry rest ih => exact fun d => ih (d.addSelectors entry.1 [entry.2])
  unfold select
  rw [← Draft.assemble_erase, eraseOption_orderOf, ← fold]
  rfl

theorem outerDraft_erase (page : PrimaryPage) (enclosing : TableAlias) :
    page.erase.outerDraft enclosing = page.outerDraft enclosing := by
  simp only [outerDraft, erase, Draft.joinAliases_erase]

end PrimaryPage

/-- Criteria of pages that differ only in values are repeated in the same way. -/
theorem lockstep_outerTerms {table : Table} {terms terms' : List OrderTerm}
    (same : OrderTerm.eraseAll terms = OrderTerm.eraseAll terms') (sort : List SortElement) :
    Lockstep (fun outer outer' => OrderTerm.eraseAll outer = OrderTerm.eraseAll outer')
      (outerTerms schema table terms sort) (outerTerms schema table terms' sort) := by
  rw [OrderTerm.eraseAll_eq_map, OrderTerm.eraseAll_eq_map] at same
  induction terms generalizing terms' sort with
  | nil =>
    cases terms' with
    | nil => exact lockstep_pure rfl
    | cons => cases same
  | cons term rest ih =>
    cases terms' with
    | nil => cases same
    | cons term' rest' =>
      cases sort with
      | nil => exact lockstep_pure rfl
      | cons element sort =>
        rw [List.map_cons, List.map_cons, List.cons.injEq] at same
        obtain ⟨first, others⟩ := same
        have more : ∀ outer outer', outer.erase = outer'.erase →
            Lockstep (fun outer outer' => OrderTerm.eraseAll outer = OrderTerm.eraseAll outer')
              (outerTerms schema table rest sort >>= fun others => pure (outer :: others))
              (outerTerms schema table rest' sort >>= fun others => pure (outer' :: others)) := by
          intro outer outer' same
          refine (ih others sort).bind fun more more' others => lockstep_pure ?_
          rw [OrderTerm.eraseAll_cons, OrderTerm.eraseAll_cons, same, others]
        -- Criteria that differ only in values are of one kind.
        obtain ⟨target, descending⟩ := term
        obtain ⟨target', descending'⟩ := term'
        cases target with
        | column c =>
          cases target' with
          | column c' =>
            simp only [outerTerms, pure_bind]
            exact more _ _ first
          | count s' => cases first
        | count s =>
          cases target' with
          | column c' => cases first
          | count s' =>
            unfold outerTerms
            exact (lockstep_sortElement _ _ _).bind more

/-- The queries around pages that differ only in values. -/
theorem lockstep_pushDown {page page' : PrimaryPage} {fetch fetch' : Fetch}
    (same : page.erase = page'.erase) (alike : fetch.Alike fetch') (sort : List SortElement) :
    Lockstep (fun s s' => s.erase = s'.erase) (pushDown schema page fetch sort)
      (pushDown schema page' fetch' sort) := by
  obtain ⟨draft, table, filter?, terms, limit⟩ := page
  obtain ⟨draft', table', filter?', terms', limit'⟩ := page'
  have tables : table = table' := congrArg PrimaryPage.table same
  have criteria : OrderTerm.eraseAll terms = OrderTerm.eraseAll terms' :=
    congrArg PrimaryPage.terms same
  subst tables
  refine (lockstep_tree_map Select.erase ?_).bind fun select select' selects => ?_
  · rw [← PrimaryPage.select_erase, ← PrimaryPage.select_erase, same]
  refine lockstep_newAlias.bind_eq fun enclosing => ?_
  refine (lockstep_tree_map Source.erase ?_).bind fun derived derived' derives => ?_
  · rw [← Source.ofSelect_erase, ← Source.ofSelect_erase, selects]
  refine (lockstep_changeDraft fun d d' _ => ?_).bind_eq fun _ => ?_
  · rw [← PrimaryPage.outerDraft_erase, same, PrimaryPage.outerDraft_erase]
  refine (lockstep_outerTerms criteria sort).bind fun outer outer' own => ?_
  refine (lockstep_selectors derives alike.layers.selections).bind_eq fun columns => ?_
  refine (Fetch.Alike.lockstep alike).bind fun below below' others => ?_
  refine lockstep_draft.bind fun d d' drafts => ?_
  refine lockstep_assemble drafts derives rfl ?_ rfl
  simp only [eraseOption_orderOf, OrderTerm.eraseAll_append, own, others]

/-! ### Requests -/

/-- **Queries for requests that are alike differ only in values.** -/
theorem lockstep_pageQuery {table : Table} {fetch fetch' : Fetch} {page page' : Pagination}
    (alike : fetch.Alike fetch') (later : 1 < page.pageNumber ↔ 1 < page'.pageNumber)
    (sort : List SortElement) :
    Lockstep (fun s s' => s.erase = s'.erase) (pageQuery schema settings table fetch sort page)
      (pageQuery schema settings table fetch' sort page') := by
  refine (Filter.OptionAlike.lockstep alike.layers.filters).bind fun c c' conditions => ?_
  refine (lockstep_orderTerms _ _ _).bind fun terms terms' criteria => ?_
  refine (lockstep_pagination later).bind fun limit limit' limits => ?_
  rw [alike.reachesToMany]
  refine (lockstep_lookup _).bind_eq fun multiplies => ?_
  split
  · refine lockstep_draft.bind fun d d' drafts => lockstep_pushDown ?_ alike sort
    simp only [PrimaryPage.erase, drafts, conditions, criteria, limits]
  · refine (lockstep_selectors rfl alike.layers.selections).bind_eq fun columns => ?_
    refine (Fetch.Alike.lockstep alike).bind fun below below' others => ?_
    refine lockstep_draft.bind fun d d' drafts => ?_
    refine lockstep_assemble drafts rfl conditions ?_ (congrArg some limits)
    simp only [eraseOption_orderOf, OrderTerm.eraseAll_append, criteria, others]

/-- The queries that return the pages of requests that are alike. -/
theorem lockstep_dataQuery {request request' : Request} (alike : request.Alike request') :
    Lockstep (fun s s' => s.erase = s'.erase) (dataQuery schema settings request)
      (dataQuery schema settings request') := by
  unfold dataQuery
  rw [alike.resourceType, alike.layer.sort?_eq]
  refine (lockstep_newTable _ _).bind_eq fun table => ?_
  exact lockstep_pageQuery alike.layer.ofLayer alike.page _

/-- The queries that count the resources of requests that are alike. -/
theorem lockstep_countQuery {request request' : Request} (alike : request.Alike request') :
    Lockstep (fun s s' => s.erase = s'.erase)
      (countQuery schema request.resourceType request.layer.filter?)
      (countQuery schema request'.resourceType request'.layer.filter?) := by
  unfold countQuery
  rw [alike.resourceType]
  refine (lockstep_newTable _ _).bind_eq fun table => ?_
  exact (Filter.OptionAlike.lockstep alike.layer.filters).queryTable

end Compile

namespace Request

variable {schema : Schema} {settings : QuerySettings} {request request' : Request}

/-- The statements of requests that are alike differ only in values. -/
theorem Alike.compile_erase (alike : request.Alike request') {plan plan' : QueryPlan}
    (h : request.compile schema settings = .ok plan)
    (h' : request'.compile schema settings = .ok plan') :
    plan.data.erase = plan'.data.erase
      ∧ plan.count?.map Select.erase = plan'.count?.map Select.erase := by
  obtain ⟨data, counted⟩ := run_of_compile h
  obtain ⟨data', counted'⟩ := run_of_compile h'
  refine ⟨(Compile.lockstep_dataQuery alike).run data data', ?_⟩
  by_cases wanted : settings.includeTotalCount = true
  · rw [if_pos wanted] at counted counted'
    obtain ⟨count, hcount, ran⟩ := counted
    obtain ⟨count', hcount', ran'⟩ := counted'
    rw [hcount, hcount', Option.map_some, Option.map_some,
      (Compile.lockstep_countQuery alike).run ran ran']
  · rw [if_neg wanted] at counted counted'
    rw [counted, counted']

/-- **Constants never reach the text of a statement.**  If two requests that are alike have plans,
then these consist of statements with the same texts, with parameters of the same names in the same
order, and with the same texts in which placeholders stand for the parameters. -/
theorem Alike.same_statements (alike : request.Alike request') {plan plan' : QueryPlan}
    (h : request.compile schema settings = .ok plan)
    (h' : request'.compile schema settings = .ok plan') :
    plan.statements.map Rendered.text = plan'.statements.map Rendered.text
      ∧ plan.statements.map (fun s => s.params.map Prod.fst)
        = plan'.statements.map (fun s => s.params.map Prod.fst)
      ∧ plan.statements.map Rendered.positional = plan'.statements.map Rendered.positional := by
  obtain ⟨data, counts⟩ := alike.compile_erase h h'
  have same : plan.statements.map Rendered.erase = plan'.statements.map Rendered.erase := by
    obtain ⟨_, count?, select⟩ := plan
    obtain ⟨_, count?', select'⟩ := plan'
    dsimp only at data counts
    simp only [QueryPlan.statements, List.map_append, List.map_cons, List.map_nil,
      Select.erase_render data]
    cases count? with
    | none =>
      cases count?' with
      | none => rfl
      | some count' => cases counts
    | some count =>
      cases count?' with
      | none => cases counts
      | some count' =>
        simp only [Option.map_some, Option.toList_some, List.map_cons, List.map_nil,
          Select.erase_render (Option.some.inj counts)]
  -- What can be told from a statement without values is the same for both plans.
  have told : ∀ {β : Type} (f : Rendered → β), (∀ r, f r.erase = f r) →
      plan.statements.map f = plan'.statements.map f := by
    intro β f erased
    have through : ∀ statements : List Rendered,
        statements.map f = (statements.map Rendered.erase).map f := by
      intro statements
      rw [List.map_map]
      exact List.map_congr_left fun r _ => (erased r).symm
    rw [through, same, ← through]
  refine ⟨told _ fun r => rfl, told _ fun r => ?_, told _ Rendered.positional_erase⟩
  simp [Rendered.erase, Rendered.eraseParams, Function.comp_def]

/-- A page of the items created since a time that take some hours, with their tags of a name. -/
def itemsSince (time : String) (hours : List Json) (tag : String) (page : Pagination) :
    Request where
  resourceType := "todoItems"
  layer := {
    filter? := some (.and [
      .comparison .greaterOrEqual (.field ["createdAt"]) (.constant (.string time)),
      .any ["durationInHours"] hours])
    sort? := some [⟨.count ["tags"], true⟩]
    pagination? := some page
    selection? := some {
      attributes := ["description"]
      relationships := [("tags", {
        filter? := some (.comparison .equals (.field ["name"]) (.constant (.string tag)))
        sort? := none
        pagination? := none
        selection? := none
        inclusions := [] })] }
    inclusions := [.mk "owner" []] }

/-- The second page of short items since May. -/
def shortItems : Request :=
  itemsSince "2024-05-01" [.string "2", .null, .string "8"] "Home" ⟨2, some 5⟩

/-- A later and larger page of long items, since a time that is none. -/
def longItems : Request :=
  itemsSince "now() OR 1 = 1" [.string "40", .string "80", .null] "@p1" ⟨9, some 10⟩

/-- Another time, other hours, another tag and another page: the statements are the same. -/
theorem Alike.same_statements_items :
    ∃ plan plan', shortItems.Alike longItems
      ∧ shortItems.compile Schema.todo ⟨10, none, true⟩ = .ok plan
      ∧ longItems.compile Schema.todo ⟨10, none, true⟩ = .ok plan'
      ∧ plan.statements.map Rendered.text = plan'.statements.map Rendered.text
      ∧ plan.statements.map (fun s => s.params.map Prod.fst)
        = plan'.statements.map (fun s => s.params.map Prod.fst)
      ∧ plan.statements.map Rendered.positional = plan'.statements.map Rendered.positional := by
  have isOk : (shortItems.compile Schema.todo ⟨10, none, true⟩).isOk = true := by decide +kernel
  have isOk' : (longItems.compile Schema.todo ⟨10, none, true⟩).isOk = true := by decide +kernel
  obtain ⟨plan, h⟩ := exists_of_isOk isOk
  obtain ⟨plan', h'⟩ := exists_of_isOk isOk'
  have alike : shortItems.Alike longItems := by
    refine ⟨rfl, .mk (.some (.and (.cons ?_ (.cons ?_ .nil)))) (.some (.cons ?_ .nil)), by decide⟩
    · exact .comparison (.same _) (.constants Json.noConfusion Json.noConfusion)
    · exact .any (by decide) (by decide)
    · refine .mk (.some ?_) .none
      exact .comparison (.same _) (.constants Json.noConfusion Json.noConfusion)
  exact ⟨plan, plan', alike, h, h', alike.same_statements h h'⟩

end Request

end ResourceQuery
