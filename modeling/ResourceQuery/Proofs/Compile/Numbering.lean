import ResourceQuery.Proofs.Compile.Allocation
import ResourceQuery.Proofs.Compile.Soundness
import ResourceQuery.Proofs.Sql.Scanning

/-!
# Statements and the names in them

A finished statement has exactly the names that were given out while it was compiled: every alias is
the alias of one source, and the parameters occur in the order of their numbers, each once.

## Main Definitions

- `Progress.Drafts`: the parameters taken are those of the sources joined since.
- `Select.Uses`: a query has exactly the names given out between two counts.
- `Piece.Numbered`: the parameters of a text are numbered from one on, without gaps.

## Main Statements

- `Fetch.yields_compile`: what is followed takes its parameters into the joined sources.
- `Compile.yields_dataQuery`, `Compile.yields_countQuery`: a statement uses the names given out for
  it.
- `Request.compile_aliases_distinct`: the aliases of a plan are unique in each statement.
- `Request.compile_numbered`: the parameters of a plan are numbered in the order of the text.

## Design Notes

In the text, joined sources stand before the condition and the limit of their query, but they are
compiled after them.  So parameters may be taken for joined sources only if the page has been moved
into a derived table, which stands before all of them.
-/

namespace ResourceQuery

open Sql (Table Source Select Selector Condition OrderTerm Parameter TableAlias)

/-! ### Joined sources -/

namespace Progress

/-- **Parameters that were taken stand in the joined sources**, in the order in which they were
taken, and the aliases are placed. -/
structure Drafts (p q : Progress) (aliases : List (Option TableAlias)) : Prop
    extends Places p q aliases where
  count : p.names.parameters ≤ q.names.parameters
  drafted : q.draft.parameters.map Parameter.name = p.draft.parameters.map Parameter.name
    ++ Names.between Names.parameterName p.names.parameters q.names.parameters

variable {p q r : Progress} {as bs : List (Option TableAlias)}

theorem Spends.drafts (spends : p.Spends q as []) : p.Drafts q as :=
  { toPlaces := spends.toPlaces
    count := spends.count
    drafted := by rw [spends.drafted, ← spends.named, List.map_nil, List.append_nil] }

theorem Drafts.trans (first : p.Drafts q as) (second : q.Drafts r bs) : p.Drafts r (as ++ bs) :=
  { toPlaces := first.toPlaces.trans second.toPlaces
    count := Nat.le_trans first.count second.count
    drafted := by
      rw [second.drafted, first.drafted, List.append_assoc,
        Names.between_append _ first.count second.count] }

/-- A query becomes a derived table and is joined. -/
theorem Spends.drafts_derived {s : Select} {derived : Source} {on : Sql.JoinOn} {d : Draft}
    (spends : p.Spends q (Select.aliasesOf s.nodes) (Sql.Piece.references s.pieces))
    (built : Source.ofSelect s ⟨q.names.tables + 1⟩ = .ok derived)
    (joins : d.joins = q.draft.joins ++ [⟨derived, on⟩])
    (selectors : d.selectors = q.draft.selectors) :
    p.Drafts ⟨⟨q.names.tables + 1, q.names.parameters⟩, d⟩ [] := by
  obtain ⟨aliases, parameters⟩ := Source.ofSelect_occurrences built
  have tables := spends.tables
  refine ⟨⟨Nat.le_succ_of_le tables, ?_, ?_⟩, spends.count, ?_⟩
  · have placed := List.perm_iff_count.mp spends.placed
    refine List.perm_iff_count.mpr fun a => ?_
    have placed := placed a
    have whole := Names.between_append Names.aliasAt tables
      (Nat.le_add_right q.names.tables 1)
    simp only [← whole, Draft.aliases, joins, aliases, Names.between_succ, Names.aliasAt,
      List.flatMap_append, List.flatMap_singleton, List.nil_append, List.count_append,
      List.count_cons, List.count_nil] at placed ⊢
    omega
  · intro plain
    have plain := spends.plain plain
    simpa [Draft.SelectsPlainly, selectors] using plain
  · have drafted : d.parameters = q.draft.parameters ++ Sql.Piece.references s.pieces := by
      simp [Draft.parameters, joins, parameters]
    rw [drafted, List.map_append, spends.named, spends.drafted]

end Progress

namespace Compile

variable {schema : Schema} {p : Progress}

theorem yields_joinFiltered (source : Table) (name : String) (filter : Filter) :
    Yields (joinFiltered schema source name filter) p (fun _ q => p.Drafts q []) := by
  refine yields_lookup_bind fun relationship _ => ?_
  split
  · refine yields_lookup_bind fun key _ => yields_newTable_bind fun base hbase => ?_
    have named := (Schema.stores_of_table hbase).2.1
    refine (yields_queryTable .columns (fun _ => True) named fun p =>
      (Filter.yields_compileOption (some filter)).mono fun _ _ spent => ⟨spent, trivial⟩).bind ?_
    rintro s q ⟨spent, -⟩
    refine yields_newAlias_bind (yields_tree_bind fun derived built => ?_)
    refine yields_changeDraft_bind (yields_tree_bind fun columns _ => ?_)
    refine yields_tree_bind fun on _ => yields_changeDraft_bind (yields_pure ?_)
    exact spent.drafts_derived built rfl rfl
  · exact yields_fail

theorem yields_joinRelated (source : Table) (name : String) (filter? : Option Filter) :
    Yields (joinRelated schema source name filter?) p (fun _ q => p.Drafts q []) := by
  cases filter? with
  | some filter => exact yields_joinFiltered source name filter
  | none =>
    refine (yields_joinRelationship source name).bind fun table q spent => ?_
    exact yields_pure spent.drafts

/-- A relationship that leads to one resource cannot be filtered, so it takes no parameters. -/
theorem yields_joinRelated_of_toOne (source : Table) {name : String} (filter? : Option Filter)
    {relationship : Relationship}
    (declared : schema.relationship source.resourceType name = .ok relationship)
    (toOne : relationship.isToMany = false) :
    Yields (joinRelated schema source name filter?) p (fun _ q => p.Spends q [] []) := by
  cases filter? with
  | some filter =>
    refine yields_lookup_bind fun found h => ?_
    rw [declared] at h
    cases h
    rw [if_neg (by simp [toOne])]
    exact yields_fail
  | none =>
    exact (yields_joinRelationship source name).bind fun table q spent => yields_pure spent

/-! ### Layers -/

theorem yields_selectors (table : Table) (source : Source) (selection? : Option Selection) :
    Yields (selectors schema table source selection?) p (fun columns q =>
      q = p ∧ ∀ selector ∈ columns, selector.IsPlain) := by
  refine yields_lift_bind fun names _ => yields_tree fun columns built => ⟨rfl, ?_⟩
  intro selector mem
  obtain ⟨c, rfl, -⟩ := exposes_of_columnSelectors built selector mem
  exact ⟨rfl, by simp [Selector.pieces]⟩

theorem yields_selectFrom (source : Source) {columns : List Selector}
    (plain : ∀ selector ∈ columns, selector.IsPlain) :
    Yields (selectFrom source columns) p (fun _ q => p.Spends q [] []) := by
  unfold selectFrom
  split
  · rename_i a _
    refine yields_changeDraft ⟨⟨Nat.le_refl _, by simp [Draft.aliases, Draft.addSelectors], ?_⟩, Nat.le_refl _,
      by simp, rfl⟩
    intro plainly entry mem selector listed
    rcases Draft.mem_appendSelectors mem listed with new | ⟨old, hold, listed⟩
    · exact plain selector new
    · exact plainly old hold selector listed
  · exact yields_pure (.refl p)

/-- Beyond what joining takes, a layer takes aliases for its criteria only. -/
theorem yields_joinLayer (source : Table) (name : String) (layer : Layer) :
    Yields (joinLayer schema source name layer) p (fun result q =>
      (∃ related middle, joinRelated schema source name layer.filter? p = .ok (related, middle)
        ∧ middle.Spends q (Select.aliasesOf (OrderTerm.allNodes result.2)) [])
      ∧ OrderTerm.allParameters result.2 = []) := by
  refine yields_lookup_bind fun relationship _ => ?_
  refine (Yields.ran _ _).bind ?_
  rintro ⟨table, provider⟩ middle joined
  refine (yields_selectors table provider layer.selection?).bind ?_
  rintro columns middle ⟨rfl, plain⟩
  refine (yields_selectFrom provider plain).bind fun _ q first => ?_
  refine (yields_orderTerms table _).bind ?_
  rintro terms r ⟨second, bare⟩
  have spent := first.trans second
  split
  · -- The identifier of a resource is a criterion without queries and parameters.
    refine yields_tree_bind fun id _ => yields_pure ⟨⟨_, middle, joined, ?_⟩, ?_⟩
    · simpa [OrderTerm.allNodes_append, OrderTerm.allNodes, Sql.OrderTarget.nodes] using spent
    · simp [bare, Sql.OrderTarget.parameters, Sql.OrderTarget.pieces]
  · exact yields_pure ⟨⟨_, middle, joined, spent⟩, bare⟩

end Compile

/-! ### Everything to be followed -/

namespace Fetch

open Compile (Yields yields_pure)

section Drafting

variable {schema : Schema}

mutual

/-- **What is followed takes its parameters into the joined sources**, and its criteria have
none. -/
theorem yields_compile {table : Table} {p : Progress} : (fetch : Fetch) →
    Yields (fetch.compile schema table) p (fun terms q =>
      p.Drafts q (Select.aliasesOf (OrderTerm.allNodes terms))
        ∧ OrderTerm.allParameters terms = [])
  | mk _ relationships => by
    unfold Fetch.compile
    exact yields_compileAll relationships

theorem yields_compileAll {table : Table} {p : Progress} :
    (relationships : List (String × Fetch)) →
      Yields (Fetch.compileAll schema table relationships) p (fun terms q =>
        p.Drafts q (Select.aliasesOf (OrderTerm.allNodes terms))
          ∧ OrderTerm.allParameters terms = [])
  | [] => yields_pure ⟨(Progress.Spends.refl p).drafts, rfl⟩
  | (name, fetch) :: rest => by
    unfold Fetch.compileAll
    refine (Compile.yields_joinLayer table name fetch.layer).bind ?_
    rintro ⟨target, own⟩ q ⟨⟨related, middle, joined, spent⟩, bare⟩
    have first := (Compile.yields_joinRelated table name fetch.layer.filter? _ _ joined).trans
      spent.drafts
    refine (yields_compile fetch).bind ?_
    rintro below r ⟨second, bareBelow⟩
    refine (yields_compileAll rest).bind ?_
    rintro after last ⟨third, bareAfter⟩
    refine yields_pure ⟨?_, by simp [bare, bareBelow, bareAfter]⟩
    simpa [OrderTerm.allNodes_append] using (first.trans second).trans third

end

end Drafting

/-- Nothing leads to many resources if neither the first relationship nor anything else does. -/
theorem of_anyToMany_false {schema : Schema} {resourceType name : String} {fetch : Fetch}
    {rest : List (String × Fetch)}
    (h : anyToMany schema resourceType ((name, fetch) :: rest) = .ok false) :
    ∃ relationship, schema.relationship resourceType name = .ok relationship
      ∧ relationship.isToMany = false
      ∧ fetch.reachesToMany schema relationship.target = .ok false
      ∧ anyToMany schema resourceType rest = .ok false := by
  unfold anyToMany at h
  cases declared : schema.relationship resourceType name with
  | error e =>
    rw [declared] at h
    cases h
  | ok relationship =>
    rw [declared] at h
    refine ⟨relationship, rfl, ?_⟩
    change (if relationship.isToMany = true then pure true
      else reachesToMany schema relationship.target fetch >>= fun reaches =>
        if reaches = true then pure true else anyToMany schema resourceType rest) = .ok false at h
    cases toMany : relationship.isToMany with
    | true =>
      rw [toMany, if_pos rfl] at h
      cases h
    | false =>
      rw [toMany, if_neg (by simp)] at h
      cases below : reachesToMany schema relationship.target fetch with
      | error e =>
        rw [below] at h
        cases h
      | ok reaches =>
        rw [below] at h
        cases reaches with
        | true => cases h
        | false => exact ⟨rfl, rfl, h⟩

section ToOne

variable {schema : Schema} {start : Source}

mutual

/-- **What is followed takes no parameters if it leads to single resources only**, because filters
are not allowed there. -/
theorem yields_compile_of_toOne {table : Table} {p : Progress} : (fetch : Fetch) →
    p.Fits schema start → p.draft.Knows schema start table →
    fetch.reachesToMany schema table.resourceType = .ok false →
    Yields (fetch.compile schema table) p (fun terms q =>
      p.Spends q (Select.aliasesOf (OrderTerm.allNodes terms)) []
        ∧ OrderTerm.allParameters terms = [])
  | mk _ relationships, fits, known, single => by
    unfold Fetch.compile
    unfold reachesToMany at single
    exact yields_compileAll_of_toOne relationships fits known single

theorem yields_compileAll_of_toOne {table : Table} {p : Progress} :
    (relationships : List (String × Fetch)) →
    p.Fits schema start → p.draft.Knows schema start table →
    anyToMany schema table.resourceType relationships = .ok false →
    Yields (Fetch.compileAll schema table relationships) p (fun terms q =>
      p.Spends q (Select.aliasesOf (OrderTerm.allNodes terms)) []
        ∧ OrderTerm.allParameters terms = [])
  | [], _, _, _ => yields_pure ⟨.refl p, rfl⟩
  | (name, fetch) :: rest, fits, known, single => by
    obtain ⟨relationship, declared, toOne, below, others⟩ := of_anyToMany_false single
    unfold Fetch.compileAll
    refine ((Compile.yields_joinLayer table name fetch.layer).and
      (.of_ensures (Compile.ensures_joinLayer fits known name fetch.layer))).bind ?_
    rintro ⟨target, own⟩ q ⟨⟨⟨related, middle, joined, spent⟩, bare⟩, layerAt⟩
    have first := (Compile.yields_joinRelated_of_toOne table fetch.layer.filter? declared toOne
      _ _ joined).trans spent
    -- The table that was joined stores the target of the relationship.
    obtain ⟨joining, fits', reached, -⟩ := layerAt.grows fits known
    have leads : target.resourceType = relationship.target := by
      rw [layerAt.resourceType_eq fits known, Schema.targetOf, declared]
    rw [← leads] at below
    refine ((yields_compile_of_toOne fetch fits' reached below).and
      (.of_ensures (fetch.ensures_compile fits' reached))).bind ?_
    rintro below r ⟨⟨second, bareBelow⟩, becomes⟩
    obtain ⟨following, fits'', -⟩ := Becomes.grows fetch becomes fits' reached
    have back := fits.knows_extends (joining.trans following) known
    refine (yields_compileAll_of_toOne rest fits'' back others).bind ?_
    rintro after last ⟨third, bareAfter⟩
    refine yields_pure ⟨?_, by simp [bare, bareBelow, bareAfter]⟩
    simpa [OrderTerm.allNodes_append] using (first.trans second).trans third

end

end ToOne

end Fetch

/-! ### Pages -/

/-- **A query has exactly the names given out** between two counts: each alias is the alias of one
source, and the parameters occur in the order of their numbers. -/
structure Sql.Select.Uses (s : Select) (before after : Names) : Prop where
  aliases : (Select.aliasesOf s.nodes).Perm
    (Names.between Names.aliasAt before.tables after.tables)
  parameters : (Sql.Piece.references s.pieces).map Parameter.name
    = Names.between Names.parameterName before.parameters after.parameters

namespace Compile

@[simp] theorem optionNodes_orderOf (terms : List OrderTerm) :
    OrderTerm.optionNodes (orderOf terms) = OrderTerm.allNodes terms := by
  cases terms <;> rfl

@[simp] theorem flatMap_allParameters_orderOf (terms : List OrderTerm) :
    (orderOf terms).toList.flatMap OrderTerm.allParameters = OrderTerm.allParameters terms := by
  cases terms <;> simp [orderOf]

/-- A page uses the alias of its table, and the names that were taken for its parts since. -/
theorem uses_of_table {names : Names} {p : Progress} {d : Draft} {table : Table}
    {selectors : List Selector} {filter? : Option Condition} {terms : List OrderTerm}
    {limit : Sql.Limit} {s : Select} (named : table.tableAlias = ⟨names.tables + 1⟩)
    (spends : Progress.Spends ⟨⟨names.tables + 1, names.parameters⟩, Draft.empty⟩ p
      (Select.aliasesOf (Condition.optionNodes filter?)
        ++ Select.aliasesOf (OrderTerm.allNodes terms))
      (filter?.toList.flatMap Condition.parameters ++ limit.parameters))
    (bare : OrderTerm.allParameters terms = []) (joins : d.joins = p.draft.joins)
    (plain : d.SelectsPlainly) (plainly : ∀ selector ∈ selectors, selector.IsPlain)
    (built : d.assemble (.table table) selectors filter? (orderOf terms) (some limit) = .ok s) :
    s.Uses names p.names := by
  obtain ⟨aliases, parameters⟩ := Draft.assemble_occurrences plain plainly built
  have tables : names.tables + 1 ≤ p.names.tables := spends.tables
  have drafted : d.parameters = [] := by
    have same : d.parameters = p.draft.parameters := by simp [Draft.parameters, joins]
    exact same.trans spends.drafted
  refine ⟨?_, ?_⟩
  · have own := List.perm_iff_count.mp aliases
    have placed := List.perm_iff_count.mp spends.placed
    refine List.perm_iff_count.mpr fun a => ?_
    have own := own a
    have placed := placed a
    have whole := Names.between_append Names.aliasAt (Nat.le_add_right names.tables 1)
      tables
    simp only [← whole, Draft.aliases, Draft.empty, joins, Source.aliases, Source.alias?,
      Source.nodes, named, Names.aliasAt, Names.between_succ, optionNodes_orderOf,
      Select.aliasesOf_nil, List.flatMap_nil, List.nil_append, List.count_append, List.count_cons,
      List.count_nil] at own placed ⊢
    omega
  · have named := spends.named
    rw [parameters]
    simpa [drafted, bare] using named

theorem plain_fullDraft {page : PrimaryPage} (plain : page.draft.SelectsPlainly) :
    page.fullDraft.SelectsPlainly := by
  have column : ∀ entry ∈ page.sortEntries, entry.2.IsPlain := by
    intro entry mem
    obtain ⟨c, rename?, -, -, same⟩ := eq_of_mem_sortSelectors mem
    rw [same]
    refine ⟨rfl, ?_⟩
    cases rename? <;> simp [Selector.pieces, Sql.Piece.parameter?]
  suffices all : ∀ (entries : List (TableAlias × Selector))
      (selectors : List (TableAlias × List Selector)), (∀ entry ∈ entries, entry.2.IsPlain) →
      (∀ old ∈ selectors, ∀ selector ∈ old.2, selector.IsPlain) →
      ∀ entry ∈ appendAll entries selectors, ∀ selector ∈ entry.2, selector.IsPlain from
    all page.sortEntries page.draft.selectors column plain
  intro entries
  induction entries with
  | nil => exact fun selectors _ old => old
  | cons entry rest ih =>
    intro selectors new old
    refine ih _ (fun other mem => new other (List.mem_cons_of_mem _ mem)) ?_
    intro listed mem selector inside
    rcases Draft.mem_appendSelectors mem inside with added | ⟨before, hbefore, inside⟩
    · rw [List.mem_singleton.mp added]
      exact new entry List.mem_cons_self
    · exact old before hbefore selector inside

/-- **The query around a page uses the names of the page, its own alias and what is joined.** -/
theorem yields_pushDown {schema : Schema} {names : Names} {p : Progress} {page : PrimaryPage}
    (fetch : Fetch) (sort : List SortElement) (drafted : page.draft = p.draft)
    (named : page.table.tableAlias = ⟨names.tables + 1⟩)
    (spends : Progress.Spends ⟨⟨names.tables + 1, names.parameters⟩, Draft.empty⟩ p
      (Select.aliasesOf (Condition.optionNodes page.filter?)
        ++ Select.aliasesOf (OrderTerm.allNodes page.terms))
      (page.filter?.toList.flatMap Condition.parameters ++ page.limit.parameters))
    (bare : OrderTerm.allParameters page.terms = []) :
    Yields (pushDown schema page fetch sort) p (fun s q => s.Uses names q.names) := by
  have plain : page.draft.SelectsPlainly := by
    rw [drafted]
    exact spends.plain (by simp [Draft.SelectsPlainly, Draft.empty])
  refine yields_tree_bind fun inside selected => ?_
  rw [PrimaryPage.select_eq] at selected
  have uses : inside.Uses names p.names := by
    have joins : page.fullDraft.joins = p.draft.joins := by
      rw [← drafted]
      rfl
    refine uses_of_table named spends bare joins (plain_fullDraft plain) ?_ selected
    intro selector mem
    obtain ⟨c, -, rfl⟩ := List.mem_map.mp mem
    exact ⟨rfl, by simp [Selector.pieces]⟩
  refine yields_newAlias_bind (yields_tree_bind fun derived built => ?_)
  obtain ⟨aliases, parameters⟩ := Source.ofSelect_occurrences built
  refine yields_changeDraft_bind ?_
  obtain ⟨m, outside, -⟩ := page.outerDraft_eq ⟨p.names.tables + 1⟩
  rw [outside]
  refine (yields_outerTerms page.table sort bare).bind ?_
  rintro outer middle ⟨first, bareOuter⟩
  refine (yields_selectors page.table derived fetch.layer.selection?).bind ?_
  rintro columns middle ⟨rfl, plainly⟩
  refine fetch.yields_compile.bind ?_
  rintro below last ⟨second, bareBelow⟩
  refine yields_draft_bind (yields_tree fun s finished => ?_)
  have grown := first.drafts.trans second
  have plainLast := grown.plain (by simp [Draft.SelectsPlainly, Draft.empty])
  obtain ⟨all, references⟩ := Draft.assemble_occurrences plainLast plainly finished
  have tables : p.names.tables + 1 ≤ last.names.tables := grown.tables
  have lower : names.tables + 1 ≤ p.names.tables := spends.tables
  have count : p.names.parameters ≤ last.names.parameters := grown.count
  refine ⟨?_, ?_⟩
  · have all := List.perm_iff_count.mp all
    have used := List.perm_iff_count.mp uses.aliases
    have placed := List.perm_iff_count.mp grown.placed
    refine List.perm_iff_count.mpr fun a => ?_
    have all := all a
    have used := used a
    have placed := placed a
    have whole := Names.between_append Names.aliasAt (Nat.le_of_succ_le lower)
      (Nat.le_of_succ_le tables)
    have upper := Names.between_append Names.aliasAt (Nat.le_add_right p.names.tables 1)
      tables
    simp only [← whole, ← upper, aliases, Draft.aliases, Draft.empty, Names.aliasAt,
      Names.between_succ, optionNodes_orderOf, OrderTerm.allNodes_append, Condition.optionNodes,
      Select.aliasesOf_append, Select.aliasesOf_nil, List.flatMap_nil, List.nil_append,
      List.append_nil, List.count_append, List.count_cons, List.count_nil] at all used placed ⊢
    omega
  · have inner := uses.parameters
    have joined : last.draft.parameters.map Parameter.name
        = Names.between Names.parameterName p.names.parameters last.names.parameters :=
      grown.drafted
    have whole := Names.between_append Names.parameterName (a := names.parameters)
      spends.count count
    rw [references, parameters]
    simp [bareOuter, bareBelow, inner, joined, whole]

theorem yields_pageQuery {schema : Schema} {info : ResourceType} {table : Table}
    (settings : QuerySettings) (names : Names) (stores : schema.Stores info table)
    (named : table.tableAlias = ⟨names.tables + 1⟩) (fetch : Fetch) (sort : List SortElement)
    (page : Pagination) :
    Yields (pageQuery schema settings table fetch sort page)
      ⟨⟨names.tables + 1, names.parameters⟩, Draft.empty⟩ (fun s q => s.Uses names q.names) := by
  have le : table.tableAlias.index ≤ names.tables + 1 := Sql.TableAlias.index_le named
  have fits : Progress.Fits schema (.table table)
    ⟨⟨names.tables + 1, names.parameters⟩, Draft.empty⟩ := .ofTable le
  have known : Draft.empty.Knows schema (.table table) table := Draft.knows_start stores
  refine ((Filter.yields_compileOption fetch.layer.filter?).and
    (.of_ensures (Filter.ensures_compileOption fetch.layer.filter? fits known))).bind ?_
  rintro condition? q ⟨filtered, restricts⟩
  have fits' := restricts.fits fits known
  have known' : q.draft.Knows schema (.table table) table := Draft.knows_start stores
  refine ((yields_orderTerms table sort).and
    (.of_ensures (ensures_orderTerms fits' known' sort))).bind ?_
  rintro terms r ⟨⟨sorted, bare⟩, orders⟩
  refine ((yields_pagination settings page).and
    (.of_ensures (ensures_pagination settings page))).bind ?_
  rintro limit _ ⟨limited, parameters, rfl⟩
  have spends := (filtered.trans sorted).trans limited
  refine yields_lookup_bind fun multiplies hmultiplies => ?_
  split
  · refine yields_draft_bind (yields_pushDown fetch sort rfl named ?_ bare)
    simpa using spends
  · rename_i single
    rw [Bool.not_eq_true] at single
    rw [single] at hmultiplies
    refine (yields_selectors table (.table table) fetch.layer.selection?).bind ?_
    rintro columns _ ⟨rfl, plainly⟩
    -- Joined tables stand before the condition in the text, but they have no parameters here.
    have fits'' : Progress.Fits schema (.table table) ⟨⟨r.names.tables, parameters⟩, r.draft⟩ :=
      (orders.fits fits' known').1.ofNames (Nat.le_refl _)
    have known'' : r.draft.Knows schema (.table table) table := Draft.knows_start stores
    refine (fetch.yields_compile_of_toOne fits'' known'' hmultiplies).bind ?_
    rintro below last ⟨followed, bareBelow⟩
    refine yields_draft_bind (yields_tree fun s built => ?_)
    have spends := spends.trans followed
    refine uses_of_table named ?_ (by simp [bare, bareBelow]) rfl
      (spends.plain (by simp [Draft.SelectsPlainly, Draft.empty])) plainly built
    simpa [OrderTerm.allNodes_append] using spends

/-- **The query of a request uses the names given out for it.** -/
theorem yields_dataQuery (schema : Schema) (settings : QuerySettings) (request : Request) :
    Yields (dataQuery schema settings request) Progress.start
      (fun s q => s.Uses Names.fresh q.names) := by
  refine yields_newTable_bind fun table htable => ?_
  obtain ⟨-, named, info, stores⟩ := Schema.stores_of_table htable
  exact yields_pageQuery settings Names.fresh stores named _ _ _

/-- **The query that counts resources uses the names given out for it.** -/
theorem yields_countQuery (schema : Schema) (resourceType : String) (filter? : Option Filter) :
    Yields (countQuery schema resourceType filter?) Progress.start
      (fun s q => s.Uses Names.fresh q.names) := by
  refine yields_newTable_bind fun table htable => ?_
  have named := (Schema.stores_of_table htable).2.1
  refine yields_inner_bind (Filter.yields_compileOption filter?) fun condition? last spent => ?_
  refine yields_tree fun s built => ?_
  obtain ⟨spends, -⟩ := Progress.Spends.query named spent built
  exact ⟨by simpa [Draft.aliases, Progress.start, Draft.empty] using spends.placed, spends.named⟩

end Compile

/-! ### Unique aliases -/

theorem Sql.Select.Uses.aliasesDistinct {s : Select} {before after : Names}
    (uses : s.Uses before after) : s.AliasesDistinct := by
  have injective : Function.Injective Names.aliasAt := by
    intro m n same
    simpa [Names.aliasAt] using same
  refine ⟨fun missing => ?_, ?_⟩
  · obtain ⟨n, -, same⟩ := List.mem_map.mp (uses.aliases.mem_iff.mp missing)
    cases same
  · exact uses.aliases.nodup_iff.mpr (List.Nodup.map injective List.nodup_range')

namespace Request

variable {schema : Schema} {settings : QuerySettings} {request : Request} {plan : QueryPlan}

/-- **The statements of a plan use the names given out for them.** -/
theorem compile_uses (h : request.compile schema settings = .ok plan) :
    (∃ last, Compile.dataQuery schema settings request Progress.start = .ok (plan.data, last)
        ∧ plan.data.Uses Names.fresh last.names)
      ∧ ∀ count ∈ plan.count?, ∃ last,
        Compile.countQuery schema request.resourceType request.layer.filter? Progress.start
            = .ok (count, last)
          ∧ count.Uses Names.fresh last.names := by
  rcases compile_cases schema settings request with ⟨plan', h', hdata, hcount⟩ | ⟨e, h', -⟩
  · rw [h] at h'
    cases h'
    refine ⟨(Compile.yields_dataQuery schema settings request).run hdata, fun count mem => ?_⟩
    exact (Compile.yields_countQuery schema _ _).run (hcount count mem)
  · rw [h] at h'
    cases h'

/-- **Aliases are unique in each statement of a plan**: those of all tables and derived tables, at
every depth. -/
theorem compile_aliases_distinct (h : request.compile schema settings = .ok plan) :
    (∀ count ∈ plan.count?, count.AliasesDistinct) ∧ plan.data.AliasesDistinct := by
  obtain ⟨⟨_, -, data⟩, counts⟩ := compile_uses h
  refine ⟨fun count mem => ?_, data.aliasesDistinct⟩
  obtain ⟨_, -, uses⟩ := counts count mem
  exact uses.aliasesDistinct

/-- A page that is moved into a derived table, with filters and numbers that contain queries. -/
theorem compile_aliases_distinct_sample :
    ∃ plan, sample.compile Schema.todo ⟨10, none, true⟩ = .ok plan
      ∧ (∀ count ∈ plan.count?, count.AliasesDistinct) ∧ plan.data.AliasesDistinct := by
  have isOk : (sample.compile Schema.todo ⟨10, none, true⟩).isOk = true := by decide +kernel
  obtain ⟨plan, h⟩ := exists_of_isOk isOk
  exact ⟨plan, h, compile_aliases_distinct h⟩

end Request

/-! ### Numbered parameters -/

/-- **The parameters of a text are numbered from one on**, in the order of the text and without
gaps. -/
structure Sql.Piece.Numbered (pieces : List Sql.Piece) (n : Nat) : Prop where
  /-- The names in the order in which values are registered. -/
  keys : (Sql.Piece.render pieces).params.map Prod.fst
    = (List.range' 1 n).map Names.parameterName
  /-- Each of them is referred to once. -/
  once : ∀ k, 1 ≤ k → k ≤ n →
    ((Sql.Piece.references pieces).map Parameter.name).count (Names.parameterName k) = 1
  /-- All values are kept, under the names by which they are referred to. -/
  kept : (Sql.Piece.render pieces).params
    = (Sql.Piece.references pieces).map (fun p => (p.name, p.value))

theorem Names.parameterName_injective : Function.Injective Names.parameterName := by
  intro m n same
  have digits : (natText m).toList = (natText n).toList := by
    simpa [Names.parameterName] using congrArg String.toList same
  exact natText_injective (String.ext digits)

/-- Values with different names are registered one after the other. -/
theorem Sql.Piece.foldl_register_of_nodup {refs : List Parameter}
    {params : List (String × Sql.Value)}
    (distinct : (params.map Prod.fst ++ refs.map Parameter.name).Nodup) :
    refs.foldl Sql.Piece.register params = params ++ refs.map (fun p => (p.name, p.value)) := by
  induction refs generalizing params with
  | nil => simp
  | cons p rest ih =>
    have new : params.lookup p.name = none := by
      cases found : params.lookup p.name with
      | none => rfl
      | some value =>
        have known := Sql.Piece.lookup_isSome_iff.mp (Option.isSome_of_eq_some found)
        exact absurd rfl ((List.nodup_append.mp distinct).2.2 _ known _ List.mem_cons_self)
    rw [List.foldl_cons, Sql.Piece.register, new, ih, List.append_assoc]
    · rfl
    · simpa using distinct

/-- It suffices that the parameters are referred to in the order of their numbers. -/
theorem Sql.Piece.numbered_of_names {pieces : List Sql.Piece} {n : Nat}
    (names : (Sql.Piece.references pieces).map Parameter.name
      = Names.between Names.parameterName 0 n) : Sql.Piece.Numbered pieces n := by
  have all : Names.between Names.parameterName 0 n = (List.range' 1 n).map Names.parameterName :=
    rfl
  have distinct : ((List.range' 1 n).map Names.parameterName).Nodup :=
    List.Nodup.map Names.parameterName_injective List.nodup_range'
  rw [all] at names
  have kept : (Sql.Piece.render pieces).params
      = (Sql.Piece.references pieces).map (fun p => (p.name, p.value)) := by
    have apart : (([] : List (String × Sql.Value)).map Prod.fst
        ++ (Sql.Piece.references pieces).map Parameter.name).Nodup := by
      simpa [names] using distinct
    exact Sql.Piece.foldl_register_of_nodup apart
  refine ⟨?_, fun k low high => ?_, kept⟩
  · rw [kept, List.map_map, ← names]
    rfl
  · rw [names]
    refine List.count_eq_one_of_mem distinct (List.mem_map_of_mem ?_)
    exact List.mem_range'_1.mpr ⟨low, by omega⟩

/-- **The parameters of a plan are numbered in the order of the text**, and there are as many as
were taken for the statement. -/
theorem Request.compile_numbered {schema : Schema} {settings : QuerySettings} {request : Request}
    {plan : QueryPlan} (h : request.compile schema settings = .ok plan) :
    (∃ last, Compile.dataQuery schema settings request Progress.start = .ok (plan.data, last)
        ∧ Sql.Piece.Numbered plan.data.pieces last.names.parameters)
      ∧ ∀ count ∈ plan.count?, ∃ last,
        Compile.countQuery schema request.resourceType request.layer.filter? Progress.start
            = .ok (count, last)
          ∧ Sql.Piece.Numbered count.pieces last.names.parameters := by
  obtain ⟨⟨last, ran, data⟩, counts⟩ := Request.compile_uses h
  refine ⟨⟨last, ran, Sql.Piece.numbered_of_names data.parameters⟩, fun count mem => ?_⟩
  obtain ⟨last, ran, uses⟩ := counts count mem
  exact ⟨last, ran, Sql.Piece.numbered_of_names uses.parameters⟩

end ResourceQuery
