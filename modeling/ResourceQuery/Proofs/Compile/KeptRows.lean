import ResourceQuery.Proofs.Compile.Rooting
import ResourceQuery.Proofs.Compile.Soundness

/-!
# Rows are kept by whole statements

`Rooting` says what paths and filters add to the condition that inner joins discard no rows.  This
file carries it on to sorts, to trees of relationships and to the statements of a request.

## Main Statements

- `Compile.Orders.rooted`, `Fetch.Becomes.rooted`: what sorts and trees of relationships add.
- `Compile.PageAt.rooted`: what the query of a page needs altogether.
- `Request.rooted_iff_keepsRows`: the statements of a request are rooted if and only if the request
  keeps rows.
-/

namespace ResourceQuery

open Sql (Table Source Select Selector Column Condition OrderTerm Remap TableAlias Limit)

/-! ### Criteria -/

theorem Sql.OrderTerm.mem_allNodes {terms : List OrderTerm} {node : Select} :
    node ∈ OrderTerm.allNodes terms ↔ ∃ term ∈ terms, node ∈ term.target.nodes := by
  induction terms with
  | nil => simp [OrderTerm.allNodes]
  | cons term rest ih =>
    obtain ⟨target, descending⟩ := term
    simp [OrderTerm.allNodes, ih]

/-- The queries inside an order are those inside its criteria. -/
theorem Compile.forall_nodes_orderOf {P : Select → Prop} {terms : List OrderTerm}
    (inside : ∀ term ∈ terms, ∀ node ∈ term.target.nodes, P node) :
    ∀ node ∈ OrderTerm.optionNodes (orderOf terms), P node := by
  intro node mem
  unfold orderOf at mem
  split at mem
  · simp [OrderTerm.optionNodes] at mem
  · obtain ⟨term, hterm, mem⟩ := Sql.OrderTerm.mem_allNodes.mp mem
    exact inside term hterm node mem

/-- The only queries inside a criterion count related rows. -/
theorem Sql.OrderTerm.Leads.rooted {m : Remap} {sources : List Source} {n : Nat} {term : OrderTerm}
    (leads : term.Leads m sources n) : ∀ node ∈ term.target.nodes, node.Rooted := by
  cases leads with
  | column => simp [OrderTarget.nodes]
  | count => exact Compile.rooted_relatedCount

/-- The same holds of the criteria of a finished query. -/
theorem Sql.OrderTerm.rooted_of_settles {m : Remap} {sources : List Source}
    {terms settled : List OrderTerm} (settles : List.Forall₂ (Settles m sources) terms settled) :
    ∀ term ∈ settled, ∀ node ∈ term.target.nodes, node.Rooted := by
  induction settles with
  | nil => simp
  | cons first _ ih =>
    refine List.forall_mem_cons.mpr ⟨?_, ih⟩
    cases first with
    | column => simp [OrderTarget.nodes]
    | count => exact Compile.rooted_relatedCount

section Criteria

variable {schema : Schema} {start : Source} {p q : Progress} {table : Table} {kept : Bool}

theorem SortElement.Becomes.rooted {element : SortElement} {term : OrderTerm}
    (h : element.Becomes schema table p term q) (fits : p.Fits schema start)
    (known : p.draft.Knows schema start table) (keeps : p.Keeps start table ↔ kept = true) :
    q.Rooted start
      ↔ p.Rooted start ∧ element.keeps schema kept table.resourceType = true := by
  obtain ⟨target, descending⟩ := element
  cases target with
  | field path =>
    obtain ⟨c, info, last, at_, -, rfl⟩ := h
    rw [SortElement.keeps, ← at_.rooted fits known keeps]
    split
    · rfl
    · unfold Draft.addSortColumn
      split
      · rfl
      · refine Progress.rooted_redraft ?_ ?_ <;> rfl
  | count path =>
    obtain ⟨select, at_, -⟩ := h
    exact (at_.rooted fits known keeps).1

/-- **A sort adds that its paths lose no rows.** -/
theorem Compile.Orders.rooted {sort : List SortElement} {terms : List OrderTerm}
    (h : Orders schema table sort p terms q) (fits : p.Fits schema start)
    (known : p.draft.Knows schema start table) (keeps : p.Keeps start table ↔ kept = true) :
    q.Rooted start ↔ p.Rooted start
      ∧ sort.all (SortElement.keeps schema kept table.resourceType) = true := by
  induction sort generalizing p terms with
  | nil =>
    rw [h.2]
    simp
  | cons element rest ih =>
    obtain ⟨term, others, middle, first, after, -⟩ := h
    have grown := first.quiet.toExtends
    rw [ih after (first.fits fits known).1 (fits.knows_extends grown known)
      ((fits.keeps_extends grown known).trans keeps), first.rooted fits known keeps, List.all_cons,
      Bool.and_eq_true, and_assoc]

end Criteria

/-! ### Trees of relationships -/

namespace Compile

variable {schema : Schema} {start : Source} {p q : Progress} {source target : Table}
  {name : String} {kept : Bool}

/-- **A derived table adds that the filter inside it loses no rows.**  What is joined to it is joined
to rows that need not be there. -/
theorem FilteredAt.rooted {filter : Filter} {derived : Select}
    (h : FilteredAt schema p source name filter target derived q) (fits : p.Fits schema start) :
    (q.Rooted start ↔ p.Rooted start
        ∧ filter.keeps schema (schema.targetOf source.resourceType name) = true)
      ∧ ¬q.Keeps start target := by
  have grown := h.extends_
  obtain ⟨key, outer, inner, condition?, last, connects, named, below, rfl, rfl⟩ := h
  obtain ⟨info, stores⟩ := connects.stored
  refine ⟨?_, ?_⟩
  · have inside := @Filter.OptionBecomes.rooted_plainQuery _ _ _ _ _ _ _ .columns
      (some ⟨last.names.tables + 1⟩) below stores (Sql.TableAlias.index_le named)
    rw [Filter.optionKeeps, connects.resourceType_eq] at inside
    rw [fits.rooted_addJoin grown rfl, ← inside, Source.nodes]
    refine and_congr_right fun _ => and_iff_right ?_
    intro joins
    cases joins
  · -- The derived table is joined last, by an outer join, and its alias is new.
    have later : p.names.tables < last.names.tables + 1 :=
      Nat.lt_succ_of_le (Nat.le_trans (Nat.le_succ _) (Filter.OptionBecomes.quiet _ below).names)
    have old : ∀ s ∈ p.draft.sources start, s.alias? ≠ some ⟨last.names.tables + 1⟩ := by
      intro s mem same
      exact absurd (fits.bounded.sources s mem _ same) (Nat.not_le.mpr later)
    have home : Draft.home ((p.draft.move target.tableAlias ⟨last.names.tables + 1⟩).addJoin
        ⟨.derived { plainQuery target .columns last.draft condition? with
          alias? := some ⟨last.names.tables + 1⟩ }, ⟨.left, outer, inner⟩⟩) target.tableAlias
        = ⟨last.names.tables + 1⟩ := by
      simp [Draft.home, Draft.addJoin, Draft.move, Sql.Remap.get?_insert]
    unfold Progress.Keeps
    rw [home]
    rintro (same | ⟨join, mem, same, inner⟩)
    · exact old start List.mem_cons_self same
    · rcases List.mem_append.mp mem with mem | mem
      · exact old join.source (List.mem_cons_of_mem _ (List.mem_map_of_mem mem)) same
      · rw [List.mem_singleton.mp mem] at inner
        cases inner

/-- **Joining what a relationship leads to.** -/
theorem RelatedAt.rooted {filter? : Option Filter} {provider : Source}
    (h : RelatedAt schema p source name filter? target provider q) (fits : p.Fits schema start)
    (known : p.draft.Knows schema start source) (keeps : p.Keeps start source ↔ kept = true) :
    (q.Rooted start ↔ p.Rooted start
        ∧ (kept || !(filter?.isNone && schema.joinsInner source.resourceType name)) = true
        ∧ Filter.optionKeeps schema (schema.targetOf source.resourceType name) filter? = true)
      ∧ (q.Keeps start target
        ↔ (filter?.isNone && schema.joinsInner source.resourceType name) = true)
      ∧ target.resourceType = schema.targetOf source.resourceType name := by
  cases filter? with
  | some filter =>
    obtain ⟨derived, h, -⟩ := h
    obtain ⟨rooted, lost⟩ := h.rooted fits
    obtain ⟨key, outer, inner, condition?, last, connects, -⟩ := h
    refine ⟨?_, ?_, connects.resourceType_eq⟩
    · rw [rooted, Filter.optionKeeps]
      simp
    · simp [lost]
  | none =>
    obtain ⟨reaches, -⟩ := h
    obtain ⟨key, outer, inner, connects, -⟩ := reaches.exists_join fits known
    refine ⟨?_, ?_, connects.resourceType_eq⟩
    · rw [reaches.rooted fits known, keeps, Filter.optionKeeps]
      refine and_congr_right fun _ => ?_
      cases kept <;> simp
    · rw [reaches.keeps fits known]
      simp

/-- **A layer adds that its relationship, its filter and its sort lose no rows.** -/
theorem LayerAt.rooted {layer : Layer} {terms : List OrderTerm}
    (h : LayerAt schema p source name layer target terms q) (fits : p.Fits schema start)
    (known : p.draft.Knows schema start source) (keeps : p.Keeps start source ↔ kept = true) :
    (q.Rooted start ↔ p.Rooted start
        ∧ layer.keeps schema kept source.resourceType name = true)
      ∧ (q.Keeps start target ↔ layer.joinsInner schema source.resourceType name = true)
      ∧ target.resourceType = schema.targetOf source.resourceType name := by
  obtain ⟨relationship, provider, a, middle, columns, own, id, -, related, named, selects, orders,
    -, -⟩ := h
  obtain ⟨rooted, keeps', leads⟩ := related.rooted fits known keeps
  obtain ⟨-, fits', known', mem⟩ := related.fits fits known
  have selecting := Progress.Extends.addSelectors middle a columns
  have visible := selects.visible mem named
  have fits'' : Progress.Fits schema start ⟨middle.names, middle.draft.addSelectors a columns⟩ :=
    fits'.addSelectors visible
  have known'' := fits'.knows_extends selecting known'
  have keeps'' := (fits'.keeps_extends selecting known').trans keeps'
  have same : Progress.Rooted start ⟨middle.names, middle.draft.addSelectors a columns⟩
      ↔ middle.Rooted start := by
    refine Progress.rooted_redraft ?_ ?_ <;> rfl
  refine ⟨?_, ?_, leads⟩
  · rw [orders.rooted fits'' known'' keeps'', same, rooted, leads, Layer.keeps, Layer.joinsInner,
      Bool.and_eq_true, Bool.and_eq_true, and_assoc]
  · exact (fits''.keeps_extends orders.quiet.toExtends known'').trans keeps''

end Compile

namespace Fetch

variable {schema : Schema} {start : Source}

mutual

/-- **A tree of relationships adds that it is followed without losing rows.** -/
theorem Becomes.rooted {table : Table} {p q : Progress} {terms : List OrderTerm} {kept : Bool} :
    (fetch : Fetch) → fetch.Becomes schema table p terms q → p.Fits schema start →
      p.draft.Knows schema start table → (p.Keeps start table ↔ kept = true) →
      (q.Rooted start ↔ p.Rooted start ∧ fetch.keeps schema kept table.resourceType = true)
  | mk _ relationships, h, fits, known, keeps => by
    simp only [Becomes] at h
    rw [Fetch.keeps]
    exact AllBecome.rooted relationships h fits known keeps

theorem AllBecome.rooted {table : Table} {p q : Progress} {terms : List OrderTerm} {kept : Bool} :
    (relationships : List (String × Fetch)) →
      AllBecome schema table relationships p terms q → p.Fits schema start →
      p.draft.Knows schema start table → (p.Keeps start table ↔ kept = true) →
      (q.Rooted start
        ↔ p.Rooted start ∧ allKeep schema kept table.resourceType relationships = true)
  | [], h, _, _, _ => by
    simp only [AllBecome] at h
    obtain ⟨rfl, rfl⟩ := h
    simp [allKeep]
  | (name, fetch) :: rest, h, fits, known, keeps => by
    simp only [AllBecome] at h
    obtain ⟨target, own, below, after, r, s, layer, follows, others, -⟩ := h
    obtain ⟨grown, fits', known', -⟩ := layer.grows fits known
    obtain ⟨rooted, keeps', leads⟩ := layer.rooted fits known keeps
    obtain ⟨grown', fits'', -⟩ := Becomes.grows fetch follows fits' known'
    have all := grown.trans grown'
    rw [AllBecome.rooted rest others fits'' (fits.knows_extends all known)
      ((fits.keeps_extends all known).trans keeps), Becomes.rooted fetch follows fits' known' keeps',
      rooted, leads, allKeep, Bool.and_eq_true, Bool.and_eq_true]
    simp only [and_assoc]

end

end Fetch

/-! ### Pages -/

namespace Compile

/-- Selected columns contain no queries. -/
theorem Selects.allNodes_eq {schema : Schema} {table : Table} {provider : Source}
    {selection? : Option Selection} {selectors : List Selector}
    (selects : Selects schema table provider selection? selectors) :
    Selector.allNodes selectors = [] := by
  obtain ⟨names, -, h⟩ := selects
  refine Sql.Selector.allNodes_of_columns fun selector mem => ?_
  obtain ⟨c, rfl, -⟩ := exposes_of_columnSelectors h selector mem
  exact ⟨c, none, rfl⟩

section Pages

variable {schema : Schema} {page : PrimaryPage} {names : Names}

/-- The queries inside a page that is used as a derived table. -/
theorem PrimaryPage.Stands.rooted_finished (stands : page.Stands schema names) (a : TableAlias) :
    (∀ node ∈ (page.finished a).nodes, node.Rooted)
      ↔ Progress.Rooted (.table page.table) ⟨names, page.draft⟩
        ∧ ∀ node ∈ Condition.optionNodes page.filter?, node.Rooted := by
  have unmoved : page.fullDraft.remap = Remap.empty := stands.unmoved
  have order := forall_nodes_orderOf fun term mem => (stands.leads term mem).rooted
  have same : Progress.Rooted (.table page.table) ⟨names, page.fullDraft⟩
      ↔ Progress.Rooted (.table page.table) ⟨names, page.draft⟩ := by
    refine Progress.rooted_redraft ?_ ?_ <;> rfl
  unfold PrimaryPage.finished
  rw [← Draft.finishedEntries_of_unmoved unmoved]
  refine (Sql.Select.forall_nodes_finished stands.fits_fullDraft
    (allNodes_shape .columns page.table)).trans ?_
  rw [same, and_iff_left order, Source.nodes]
  simp

/-- The rows of a page are all there in the query around it. -/
theorem PrimaryPage.keeps_outer (page : PrimaryPage) (names : Names) (enclosing : TableAlias) :
    Progress.Keeps (.derived (page.finished enclosing)) ⟨names, page.outerDraft enclosing⟩
      page.table := by
  obtain ⟨m, hm, get⟩ := page.outerDraft_eq enclosing
  left
  rw [Draft.home, hm]
  simp only [get, List.mem_cons_self, if_true]
  rfl

variable {start : Source} {p q : Progress} {table : Table}

/-- The criteria of the query around a page follow paths that the page has followed already. -/
theorem OuterOrders.rooted {terms outer : List OrderTerm} {sort : List SortElement}
    (h : OuterOrders schema table terms sort p outer q) (fits : p.Fits schema start)
    (known : p.draft.Knows schema start table) (keeps : p.Keeps start table ↔ true = true)
    (sorted : sort.all (SortElement.keeps schema true table.resourceType) = true) :
    q.Rooted start ↔ p.Rooted start := by
  induction terms generalizing p outer sort with
  | nil => rw [h.2]
  | cons term rest ih =>
    cases sort with
    | nil => rw [h.2]
    | cons element sort =>
      obtain ⟨first, others, middle, hfirst, after, -⟩ := h
      rw [List.all_cons, Bool.and_eq_true] at sorted
      split at hfirst
      · rw [hfirst.2] at after
        exact ih after fits known keeps sorted.2
      · have grown := hfirst.quiet.toExtends
        rw [ih after (hfirst.fits fits known).1 (fits.knows_extends grown known)
          ((fits.keeps_extends grown known).trans keeps) sorted.2, hfirst.rooted fits known keeps,
          and_iff_left sorted.1]

/-- **The query around a page** keeps rows if the page does and if the tree of relationships is
followed without losing rows. -/
theorem PushedDown.rooted {fetch : Fetch} {sort : List SortElement} {select : Select}
    (h : PushedDown schema page names fetch sort select) (stands : page.Stands schema names)
    (sorted : (∀ node ∈ (page.finished ⟨names.tables + 1⟩).nodes, node.Rooted) →
      sort.all (SortElement.keeps schema true page.table.resourceType) = true) :
    (∀ node ∈ select.nodes, node.Rooted)
      ↔ (∀ node ∈ (page.finished ⟨names.tables + 1⟩).nodes, node.Rooted)
        ∧ fetch.keeps schema true page.table.resourceType = true := by
  obtain ⟨parameters, outer, columns, below, middle, last, settled, orders, selects, follows,
    settles, rfl⟩ := h
  have fits := stands.outer_fits parameters
  have known := stands.outer_knows ⟨names.tables + 1⟩
  have keeps := iff_of_true
    (page.keeps_outer ⟨names.tables + 1, parameters⟩ ⟨names.tables + 1⟩) (Eq.refl true)
  have resolves := fun c descending => @PrimaryPage.Stands.outer_resolves schema page names stands
    ⟨names.tables + 1⟩ c descending
  obtain ⟨fits', -⟩ := orders.fits fits known resolves
  have grown := orders.quiet.toExtends
  have known' := fits.knows_extends grown known
  have keeps' := (fits.keeps_extends grown known).trans keeps
  obtain ⟨-, fits'', -⟩ := Fetch.Becomes.grows fetch follows fits' known'
  obtain ⟨m, hm, -⟩ := page.outerDraft_eq ⟨names.tables + 1⟩
  -- Nothing has been joined to the page when its query is moved into the derived table.
  have unjoined : Progress.Rooted (.derived (page.finished ⟨names.tables + 1⟩))
      ⟨⟨names.tables + 1, parameters⟩, page.outerDraft ⟨names.tables + 1⟩⟩ := by
    refine Progress.rooted_of_unjoined ?_
    rw [hm]
    rfl
  have order := forall_nodes_orderOf (Sql.OrderTerm.rooted_of_settles settles)
  rw [Sql.Select.forall_nodes_finished fits'' selects.allNodes_eq, and_iff_left order,
    Fetch.Becomes.rooted fetch follows fits' known' keeps', Source.nodes]
  simp only [Condition.optionNodes, List.not_mem_nil, false_implies, implies_true, and_true]
  constructor
  · rintro ⟨⟨-, followed⟩, inside⟩
    exact ⟨inside, followed⟩
  · rintro ⟨inside, followed⟩
    exact ⟨⟨(orders.rooted fits known keeps (sorted inside)).mpr unjoined, followed⟩, inside⟩

/-- **The query of a page keeps rows** if and only if its filter, its sort and its relationships
do. -/
theorem PageAt.rooted {info : ResourceType} {names : Names} {fetch : Fetch}
    {sort : List SortElement} {select : Select}
    (h : PageAt schema table fetch sort ⟨names, Draft.empty⟩ select)
    (stores : schema.Stores info table) (le : table.tableAlias.index ≤ names.tables) :
    (∀ node ∈ select.nodes, node.Rooted)
      ↔ (Filter.optionKeeps schema table.resourceType fetch.layer.filter?
        && sort.all (SortElement.keeps schema true table.resourceType)
        && fetch.keeps schema true table.resourceType) = true := by
  obtain ⟨condition?, terms, limit, q, r, parameters, restricts, orders, either⟩ := h
  have stands := PrimaryPage.stands stores le restricts orders limit parameters
  have fits := restricts.fits (.ofTable le) (Draft.knows_start stores)
  have quiet := Filter.OptionBecomes.quiet _ restricts
  have keeps := iff_of_true (Progress.keeps_start (t := table) quiet.remap) (Eq.refl true)
  have sorted := orders.rooted fits (Draft.knows_start stores) keeps
  -- What the page needs is the same in both forms of the query.
  have own : (Progress.Rooted (.table table) ⟨⟨r.names.tables, parameters⟩, r.draft⟩
      ∧ ∀ node ∈ Condition.optionNodes condition?, node.Rooted)
      ↔ Filter.optionKeeps schema table.resourceType fetch.layer.filter? = true
        ∧ sort.all (SortElement.keeps schema true table.resourceType) = true := by
    rw [← restricts.rooted_start stores le, and_right_comm, ← sorted]
    exact and_congr_left fun _ => Progress.rooted_redraft rfl rfl
  rw [Bool.and_eq_true, Bool.and_eq_true, ← own]
  rcases either with ⟨-, pushed⟩
    | ⟨columns, below, last, settled, -, selects, follows, settles, rfl⟩
  · rw [pushed.rooted stands fun inside => ?_, stands.rooted_finished]
    exact (own.mp ((stands.rooted_finished _).mp inside)).2
  · have known' : r.draft.Knows schema (.table table) table := Draft.knows_start stores
    have keeps' := iff_of_true (Progress.keeps_start (t := table) stands.unmoved) (Eq.refl true)
    obtain ⟨-, fits', -⟩ := Fetch.Becomes.grows fetch follows stands.fits known'
    have order := forall_nodes_orderOf (Sql.OrderTerm.rooted_of_settles settles)
    rw [Sql.Select.forall_nodes_finished fits' selects.allNodes_eq, and_iff_left order,
      Fetch.Becomes.rooted fetch follows stands.fits known' keeps', Source.nodes]
    simp only [List.not_mem_nil, false_implies, implies_true, true_and]
    exact and_right_comm

end Pages

end Compile

/-! ### Requests -/

namespace Request

variable {schema : Schema} {settings : QuerySettings} {request : Request}

/-- The query that counts resources keeps rows if and only if the filter does. -/
theorem rooted_countQuery {count : Select}
    (h : Compile.run (Compile.countQuery schema request.resourceType request.layer.filter?)
      = .ok count) :
    (∀ node ∈ count.nodes, node.Rooted)
      ↔ Filter.optionKeeps schema request.resourceType request.layer.filter? = true := by
  obtain ⟨-, -, table, condition?, last, htable, restricts, rfl⟩ :=
    (Compile.ensures_countQuery schema _ _ _).run h
  obtain ⟨leads, named, info, stores⟩ := Schema.stores_of_table htable
  have restricts : Filter.OptionBecomes schema table request.layer.filter?
    ⟨⟨1, 0⟩, Draft.empty⟩ condition? last := restricts
  rw [← leads]
  exact restricts.rooted_plainQuery stores (Sql.TableAlias.index_le named)

/-- The query that returns the page keeps rows if and only if the request does. -/
theorem rooted_dataQuery {data : Select}
    (h : Compile.run (Compile.dataQuery schema settings request) = .ok data) :
    (∀ node ∈ data.nodes, node.Rooted) ↔ request.keepsRows schema = true := by
  obtain ⟨-, -, table, htable, page⟩ := (Compile.ensures_dataQuery schema settings request).run h
  obtain ⟨leads, named, info, stores⟩ := Schema.stores_of_table htable
  have filtered : (Fetch.ofLayer request.layer).layer.filter? = request.layer.filter? := by
    unfold Fetch.ofLayer
    rfl
  rw [page.rooted stores (Sql.TableAlias.index_le named), leads, filtered]
  rfl

/-- **Inner joins discard no rows that an outer join kept**, at any depth of the statements of a
plan, if and only if the request follows no required relationship right after an optional or a
filtered one. -/
theorem rooted_iff_keepsRows {plan : QueryPlan} (h : request.compile schema settings = .ok plan) :
    ((∀ count ∈ plan.count?, ∀ node ∈ count.nodes, node.Rooted)
        ∧ ∀ node ∈ plan.data.nodes, node.Rooted)
      ↔ request.keepsRows schema = true := by
  rcases compile_cases schema settings request with ⟨plan', h', hdata, hcount⟩ | ⟨e, h', -⟩
  · rw [h] at h'
    cases h'
    rw [rooted_dataQuery hdata]
    refine ⟨fun rooted => rooted.2, fun keeps => ⟨fun count mem => ?_, keeps⟩⟩
    unfold keepsRows at keeps
    rw [Bool.and_eq_true, Bool.and_eq_true] at keeps
    exact (rooted_countQuery (hcount count mem)).mpr keeps.1.1
  · rw [h] at h'
    cases h'

/-- Items by the account of their owner, who is required, while the account is not. -/
def itemsByAccount : Request where
  resourceType := "todoItems"
  layer := {
    filter? := some (.comparison .equals (.field ["owner", "account", "userName"])
      (.constant (.string "smith")))
    sort? := none
    pagination? := none
    selection? := none
    inclusions := [.mk "tags" []] }

/-- The rows of items whose owner has no account are kept. -/
theorem rooted_iff_keepsRows_itemsByAccount :
    ∃ plan, itemsByAccount.compile Schema.todo ⟨10, none, true⟩ = .ok plan
      ∧ (∀ count ∈ plan.count?, ∀ node ∈ count.nodes, node.Rooted)
      ∧ ∀ node ∈ plan.data.nodes, node.Rooted := by
  have isOk : (itemsByAccount.compile Schema.todo ⟨10, none, true⟩).isOk = true := by
    decide +kernel
  obtain ⟨plan, h⟩ := exists_of_isOk isOk
  have keeps : itemsByAccount.keepsRows Schema.todo = true := by decide +kernel
  exact ⟨plan, h, (rooted_iff_keepsRows h).mpr keeps⟩

/-- Tags with the owners of their items.  An item is optional, its owner is required. -/
def tagsWithOwners : Request where
  resourceType := "tags"
  layer := {
    filter? := none
    sort? := none
    pagination? := none
    selection? := none
    inclusions := [.mk "todoItem" [.mk "owner" []]] }

/-- Tags without an item are discarded: the owner is inner-joined to the item, which is
outer-joined. -/
theorem not_rooted_tagsWithOwners :
    ∃ plan, tagsWithOwners.compile Schema.todo ⟨10, none, false⟩ = .ok plan
      ∧ ¬∀ node ∈ plan.data.nodes, node.Rooted := by
  have isOk : (Compile.run (Compile.dataQuery Schema.todo ⟨10, none, false⟩ tagsWithOwners)).isOk
      = true := by decide +kernel
  obtain ⟨data, h⟩ := exists_of_isOk isOk
  refine ⟨⟨"tags", none, data⟩, ?_, ?_⟩
  · simp only [Request.compile, h]
    rfl
  · rw [rooted_dataQuery h]
    decide +kernel

end Request

end ResourceQuery
