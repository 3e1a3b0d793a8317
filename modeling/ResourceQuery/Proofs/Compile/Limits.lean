import ResourceQuery.Proofs.Compile.KeptRows
import ResourceQuery.Proofs.Compile.Numbering
import ResourceQuery.Proofs.Compile.PageOrder

/-!
# Limits

A limit on the rows of a query cuts off resources only if each row is a resource of its own.  So a
statement has a single limit, in the query that ranges over the primary resources.

## Main Definitions

- `Select.limited`: the queries with a limit, at any depth.
- `Unlimited`: none of several queries has a limit.

## Main Statements

- `Filter.Becomes.unlimited`: the queries inside a condition have no limit.
- `Fetch.Becomes.unlimited`: neither have the sources that relationships are joined as.
-/

namespace ResourceQuery

open Sql (Table Source Select Selector Entry Column Condition OrderTerm Operand Remap TableAlias
  Limit)

/-- **The queries with a limit** inside a query, which may be the query itself. -/
def Sql.Select.limited (s : Select) : List Select :=
  s.nodes.filter (fun node => node.limit?.isSome)

/-- None of several queries has a limit. -/
def Sql.Unlimited (nodes : List Select) : Prop :=
  ∀ node ∈ nodes, node.limit? = none

open Sql (Unlimited)

namespace Sql

theorem unlimited_nil : Unlimited [] :=
  fun _ mem => absurd mem List.not_mem_nil

theorem Unlimited.filter_eq_nil {nodes : List Select} (unlimited : Unlimited nodes) :
    nodes.filter (fun node => node.limit?.isSome) = [] := by
  rw [List.filter_eq_nil_iff]
  intro node mem
  rw [unlimited node mem]
  exact Bool.false_ne_true

theorem unlimited_append {nodes more : List Select} :
    Unlimited (nodes ++ more) ↔ Unlimited nodes ∧ Unlimited more :=
  List.forall_mem_append

theorem Select.nodes_eq (s : Select) :
    s.nodes = s :: (Entry.allNodes s.entries ++ Condition.optionNodes s.filter?
      ++ OrderTerm.optionNodes s.order?) := by
  cases s
  simp only [Select.nodes]

/-- The limits of a query are its own and those of its sources, if it has none elsewhere. -/
theorem Select.limited_eq {s : Select} (condition : Unlimited (Condition.optionNodes s.filter?))
    (order : Unlimited (OrderTerm.optionNodes s.order?)) :
    s.limited = (if s.limit?.isSome then [s] else [])
      ++ (Entry.allNodes s.entries).filter (fun node => node.limit?.isSome) := by
  unfold Select.limited
  rw [Select.nodes_eq, List.filter_cons, List.filter_append, List.filter_append,
    condition.filter_eq_nil, order.filter_eq_nil, List.append_nil, List.append_nil]
  split <;> rfl

/-- A query with a limit has no other inside if its parts have none. -/
theorem Select.limited_eq_singleton {s : Select} (own : s.limit?.isSome = true)
    (entries : Unlimited (Entry.allNodes s.entries))
    (condition : Unlimited (Condition.optionNodes s.filter?))
    (order : Unlimited (OrderTerm.optionNodes s.order?)) : s.limited = [s] := by
  rw [Select.limited_eq condition order, entries.filter_eq_nil, if_pos own, List.append_nil]

/-- A query without a limit has none inside if its parts have none. -/
theorem Select.unlimited_nodes {s : Select} (own : s.limit? = none)
    (entries : Unlimited (Entry.allNodes s.entries))
    (condition : Unlimited (Condition.optionNodes s.filter?))
    (order : Unlimited (OrderTerm.optionNodes s.order?)) : Unlimited s.nodes := by
  rw [Select.nodes_eq]
  exact List.forall_mem_cons.mpr
    ⟨own, unlimited_append.mpr ⟨unlimited_append.mpr ⟨entries, condition⟩, order⟩⟩

/-- A combination of terms has no limit inside if its terms have none. -/
theorem unlimited_combine {op : LogicalOp} {terms : List Condition}
    (h : ∀ term ∈ terms, Unlimited term.nodes) : Unlimited (Condition.combine op terms).nodes := by
  intro node mem
  obtain ⟨term, listed, inside⟩ := Condition.mem_nodes_combine.mp mem
  exact h term listed node inside

end Sql

section Entries

variable {d : Draft} {start : Source} {selectors : List Selector}

/-- The joined sources of a query have no limit inside if only columns are selected from them. -/
theorem Draft.unlimited_joined (on : Join → Sql.JoinOn)
    (joined : ∀ join ∈ d.joins, Unlimited join.source.nodes)
    (columns : ∀ join ∈ d.joins, Selector.allNodes (d.selectorsOf join.source) = []) :
    Unlimited (Entry.allNodes
      (d.joins.map (fun join => ⟨join.source, some (on join), d.selectorsOf join.source⟩))) := by
  intro node mem
  obtain ⟨entry, listed, inside⟩ := Entry.mem_allNodes.mp mem
  obtain ⟨join, mem, rfl⟩ := List.mem_map.mp listed
  rw [columns join mem] at inside
  exact joined join mem node (inside.resolve_right List.not_mem_nil)

/-- The sources of a query have no limit inside if the first and the joined ones have none. -/
theorem Draft.unlimited_entries (on : Join → Sql.JoinOn) (first : Unlimited start.nodes)
    (joined : ∀ join ∈ d.joins, Unlimited join.source.nodes)
    (plain : Selector.allNodes selectors = [])
    (columns : ∀ join ∈ d.joins, Selector.allNodes (d.selectorsOf join.source) = []) :
    Unlimited (Entry.allNodes (⟨start, none, selectors⟩
      :: d.joins.map (fun join => ⟨join.source, some (on join), d.selectorsOf join.source⟩))) := by
  rw [Entry.allNodes, plain, List.append_nil]
  exact Sql.unlimited_append.mpr ⟨first, Draft.unlimited_joined on joined columns⟩

end Entries

/-- Only columns are selected from the sources of a query under construction. -/
theorem Progress.Fits.allNodes_selectorsOf {schema : Schema} {start : Source} {p : Progress}
    (fits : p.Fits schema start) (source : Source) :
    Selector.allNodes (p.draft.selectorsOf source) = [] := by
  refine Selector.allNodes_of_columns fun selector mem => ?_
  obtain ⟨c, rename?, same, -⟩ := fits.selectorsOf_visible source selector mem
  exact ⟨c, rename?, same⟩

/-! ### Conditions -/

namespace Compile

variable {schema : Schema} {p q : Progress} {table : Table} {names : Names} {last : Progress}

/-- A query whose draft only joins tables has a limit inside only if its condition has. -/
theorem unlimited_plainQuery {shape : QueryShape} {condition? : Option Condition}
    {alias? : Option TableAlias} (quiet : Progress.Quiet ⟨names, Draft.empty⟩ last)
    (condition : Unlimited (Condition.optionNodes condition?)) :
    Unlimited (Select.nodes
      { plainQuery table shape last.draft condition? with alias? := alias? }) := by
  obtain ⟨more, all, tables⟩ := quiet.joins
  have joined : ∀ join ∈ last.draft.joins, ∃ t, join.source = .table t := by
    intro join mem
    rw [all] at mem
    obtain ⟨t, source, -⟩ := tables join mem
    exact ⟨t, source⟩
  have bare : ∀ t, last.draft.selectorsOf (.table t) = [] := by
    intro t
    rw [Draft.selectorsOf, quiet.selectors]
    rfl
  refine Select.unlimited_nodes rfl ?_ condition Sql.unlimited_nil
  refine Draft.unlimited_entries Join.on Sql.unlimited_nil ?_ (allNodes_shape shape table) ?_
  · intro join mem
    obtain ⟨t, source⟩ := joined join mem
    rw [source]
    exact Sql.unlimited_nil
  · intro join mem
    obtain ⟨t, source⟩ := joined join mem
    rw [source, bare]
    rfl

/-- Relating the rows of a query to another row adds no limit. -/
theorem unlimited_relatedQuery {shape : QueryShape} {condition? : Option Condition}
    {outer inner : Column} (quiet : Progress.Quiet ⟨names, Draft.empty⟩ last)
    (condition : Unlimited (Condition.optionNodes condition?)) :
    Unlimited (relatedQuery table shape last.draft condition? outer inner).nodes := by
  have key : Unlimited (Condition.columnsEqual outer inner).nodes := by
    simp [Unlimited, Condition.columnsEqual, Condition.nodes, Operand.nodes]
  have restricted : Unlimited (Condition.optionNodes
      (relatedQuery table shape last.draft condition? outer inner).filter?) := by
    cases condition? with
    | none => exact key
    | some existing =>
      refine Sql.unlimited_combine fun term mem => ?_
      rcases List.mem_pair.mp mem with rfl | rfl
      · exact key
      · exact condition
  show Unlimited (Select.nodes { plainQuery table shape last.draft
    (relatedQuery table shape last.draft condition? outer inner).filter? with alias? := none })
  exact unlimited_plainQuery quiet restricted

/-- The number of related rows is counted without a limit. -/
theorem unlimited_relatedCount {outer inner : Column} :
    Unlimited (relatedQuery table .count Draft.empty none outer inner).nodes :=
  unlimited_relatedQuery (Progress.Quiet.refl ⟨Names.fresh, Draft.empty⟩) Sql.unlimited_nil

theorem Pending.unlimited {e : Expression} {pending : PendingOperand} {type : OperandType}
    {operand : Operand} (side : Pending schema table p e pending q)
    (finishes : Finishes schema type pending operand) : Unlimited operand.nodes := by
  cases finishes with
  | null | constant => exact Sql.unlimited_nil
  | typed =>
    cases side with
    | field => exact Sql.unlimited_nil
    | count at_ =>
      obtain ⟨owner, name, r, target, key, outer, inner, -, -, -, rfl, -⟩ := at_
      exact unlimited_relatedCount

end Compile

namespace Filter

variable {schema : Schema}

mutual

/-- **The queries inside a condition have no limit.** -/
theorem Becomes.unlimited {table : Table} {p q : Progress} {condition : Condition} :
    (filter : Filter) → filter.Becomes schema table p condition q → Unlimited condition.nodes
  | .comparison _ _ _, h => by
    simp only [Becomes] at h
    obtain ⟨l, r, type, lo, ro, middle, last, parameters, hl, hr, -, fl, fr, -, rfl, -⟩ := h
    rw [Condition.nodes]
    exact Sql.unlimited_append.mpr ⟨hl.unlimited fl, hr.unlimited fr⟩
  | .and terms, h => by
    simp only [Becomes] at h
    obtain ⟨conditions, h, rfl⟩ := h
    exact Sql.unlimited_combine (AllBecome.unlimited terms h)
  | .or terms, h => by
    simp only [Becomes] at h
    obtain ⟨conditions, h, rfl⟩ := h
    exact Sql.unlimited_combine (AllBecome.unlimited terms h)
  | .not term, h => by
    simp only [Becomes] at h
    obtain ⟨inner, h, rfl⟩ := h
    rw [Condition.nodes]
    exact Becomes.unlimited term h
  | .textMatch _ _ _, h => by
    simp only [Becomes] at h
    obtain ⟨c, info, -, rfl⟩ := h
    exact Sql.unlimited_nil
  | .any _ values, h => by
    simp only [Becomes] at h
    obtain ⟨c, info, given, last, parameters, -, -, rfl, -⟩ := h
    refine Sql.unlimited_combine fun term mem => ?_
    rw [Compile.nodes_of_mem_anyTerms mem]
    exact Sql.unlimited_nil
  | .has relationship filter?, h => by
    simp only [Becomes] at h
    obtain ⟨owner, name, r, target, key, outer, inner, condition?, last, -, -, -, below, rfl,
      -⟩ := h
    rw [Condition.nodes]
    exact Compile.unlimited_relatedQuery (OptionBecomes.quiet filter? below)
      (OptionBecomes.unlimited filter? below)
  | .isType _ _, h => by
    simp only [Becomes] at h

theorem AllBecome.unlimited {table : Table} {p q : Progress} {conditions : List Condition} :
    (terms : List Filter) → AllBecome schema table terms p conditions q →
      ∀ condition ∈ conditions, Unlimited condition.nodes
  | [], h => by
    simp only [AllBecome] at h
    obtain ⟨rfl, -⟩ := h
    exact fun _ mem => absurd mem List.not_mem_nil
  | term :: rest, h => by
    simp only [AllBecome] at h
    obtain ⟨condition, others, middle, first, after, rfl⟩ := h
    exact List.forall_mem_cons.mpr ⟨Becomes.unlimited term first, AllBecome.unlimited rest after⟩

theorem OptionBecomes.unlimited {table : Table} {p q : Progress} {condition? : Option Condition} :
    (filter? : Option Filter) → OptionBecomes schema table filter? p condition? q →
      Unlimited (Condition.optionNodes condition?)
  | none, h => by
    simp only [OptionBecomes] at h
    obtain ⟨rfl, -⟩ := h
    exact Sql.unlimited_nil
  | some filter, h => by
    simp only [OptionBecomes] at h
    obtain ⟨condition, h, rfl⟩ := h
    exact Becomes.unlimited filter h

end

end Filter

/-! ### Orders and relationships -/

namespace Sql.OrderTerm

variable {m : Remap} {sources : List Source}

/-- The only queries inside a criterion count related rows. -/
theorem Leads.unlimited {n : Nat} {term : OrderTerm} (leads : term.Leads m sources n) :
    Unlimited term.target.nodes := by
  cases leads with
  | column => exact unlimited_nil
  | count => exact Compile.unlimited_relatedCount

/-- So it is in the finished query. -/
theorem unlimited_of_settles {terms settled : List OrderTerm}
    (settles : List.Forall₂ (Settles m sources) terms settled) :
    ∀ term ∈ settled, Unlimited term.target.nodes := by
  induction settles with
  | nil => exact fun _ mem => absurd mem List.not_mem_nil
  | cons first _ ih =>
    refine List.forall_mem_cons.mpr ⟨?_, ih⟩
    cases first with
    | column => exact unlimited_nil
    | count => exact Compile.unlimited_relatedCount

end Sql.OrderTerm

/-- No joined source has a limit inside. -/
def Draft.JoinsUnlimited (d : Draft) : Prop :=
  ∀ join ∈ d.joins, Unlimited join.source.nodes

section Joins

variable {schema : Schema} {p q : Progress}

/-- Tables may be joined. -/
theorem Progress.Quiet.unlimited (quiet : p.Quiet q) (unlimited : p.draft.JoinsUnlimited) :
    q.draft.JoinsUnlimited := by
  obtain ⟨more, all, tables⟩ := quiet.joins
  intro join mem
  rw [all] at mem
  rcases List.mem_append.mp mem with mem | mem
  · exact unlimited join mem
  · obtain ⟨t, source, -⟩ := tables join mem
    rw [source]
    exact Sql.unlimited_nil

/-- **A layer is joined as a source without a limit**, whether it is filtered or not. -/
theorem Compile.LayerAt.unlimited {source target : Table} {name : String} {layer : Layer}
    {terms : List OrderTerm} (h : LayerAt schema p source name layer target terms q)
    (unlimited : p.draft.JoinsUnlimited) : q.draft.JoinsUnlimited := by
  obtain ⟨relationship, provider, a, middle, columns, own, id, -, related, -, -, orders, -, -⟩ := h
  have joined : middle.draft.JoinsUnlimited := by
    unfold RelatedAt at related
    split at related
    · obtain ⟨derived, ⟨key, outer, inner, condition?, last, -, -, restricts, rfl, rfl⟩, -⟩ :=
        related
      refine List.forall_mem_append.mpr ⟨unlimited, ?_⟩
      intro join mem
      obtain rfl := List.mem_singleton.mp mem
      exact unlimited_plainQuery (Filter.OptionBecomes.quiet _ restricts)
        (Filter.OptionBecomes.unlimited _ restricts)
    · exact related.1.quiet.unlimited unlimited
  exact orders.quiet.unlimited joined

end Joins

namespace Fetch

variable {schema : Schema}

mutual

/-- **Relationships are joined as sources without a limit.** -/
theorem Becomes.unlimited {table : Table} {p q : Progress} {terms : List OrderTerm} :
    (fetch : Fetch) → fetch.Becomes schema table p terms q → p.draft.JoinsUnlimited →
      q.draft.JoinsUnlimited
  | mk _ relationships, h, unlimited => by
    simp only [Becomes] at h
    exact AllBecome.unlimited relationships h unlimited

theorem AllBecome.unlimited {table : Table} {p q : Progress} {terms : List OrderTerm} :
    (relationships : List (String × Fetch)) →
      AllBecome schema table relationships p terms q → p.draft.JoinsUnlimited →
      q.draft.JoinsUnlimited
  | [], h, unlimited => by
    simp only [AllBecome] at h
    rw [h.2]
    exact unlimited
  | (name, fetch) :: rest, h, unlimited => by
    simp only [AllBecome] at h
    obtain ⟨target, own, below, after, r, s, layer, follows, others, -⟩ := h
    have first := layer.unlimited unlimited
    have second := Becomes.unlimited fetch follows first
    exact AllBecome.unlimited rest others second

end

end Fetch

/-! ### Chains of joins -/

theorem Relationship.isToOne_of_not_isToMany {relationship : Relationship}
    (single : relationship.isToMany = false) : relationship.isToOne = true := by
  unfold isToMany at single
  unfold isToOne
  cases cardinality : relationship.cardinality with
  | one => rfl
  | many =>
    rw [cardinality] at single
    cases single

section Chains

open Compile (Chain Orders)

variable {schema : Schema} {start table : Table} {p q : Progress}

theorem SortElement.Becomes.chain {element : SortElement} {term : OrderTerm}
    (h : element.Becomes schema table p term q) (fits : p.Fits schema (.table start))
    (known : p.draft.Knows schema (.table start) table) (unmoved : p.draft.remap = Remap.empty)
    (chain : Chain schema start p.draft.joins) : Chain schema start q.draft.joins := by
  unfold SortElement.Becomes at h
  split at h
  · obtain ⟨c, info, last, ⟨name, owner, -, walks, -, -⟩, -, rfl⟩ := h
    have joined := walks.chain fits known unmoved chain
    split
    · exact joined
    · unfold Draft.addSortColumn
      split <;> exact joined
  · obtain ⟨select, ⟨owner, name, r, target, key, outer, inner, many, -, -, -, rfl⟩, -⟩ := h
    exact many.2.1.chain fits known unmoved chain

/-- **A sort extends the chain of joins.** -/
theorem Compile.Orders.chain {sort : List SortElement} {terms : List OrderTerm}
    (h : Orders schema table sort p terms q) (fits : p.Fits schema (.table start))
    (known : p.draft.Knows schema (.table start) table) (unmoved : p.draft.remap = Remap.empty)
    (chain : Chain schema start p.draft.joins) : Chain schema start q.draft.joins := by
  induction sort generalizing p terms with
  | nil =>
    obtain ⟨-, rfl⟩ := h
    exact chain
  | cons element rest ih =>
    obtain ⟨term, others, middle, first, after, -⟩ := h
    exact ih after (first.fits fits known).1 (fits.knows_extends first.quiet.toExtends known)
      (first.quiet.remap.trans unmoved) (first.chain fits known unmoved chain)

namespace Compile

variable {source target : Table} {name : String} {relationship : Relationship}

/-- **A layer that leads to one resource extends the chain of joins**, if it is not filtered. -/
theorem LayerAt.chain {layer : Layer} {terms : List OrderTerm}
    (h : LayerAt schema p source name layer target terms q) (unfiltered : layer.filter? = none)
    (declared : schema.relationship source.resourceType name = .ok relationship)
    (toOne : relationship.isToOne = true) (fits : p.Fits schema (.table start))
    (known : p.draft.Knows schema (.table start) source) (unmoved : p.draft.remap = Remap.empty)
    (chain : Chain schema start p.draft.joins) :
    q.draft.remap = Remap.empty ∧ Chain schema start q.draft.joins := by
  obtain ⟨_, provider, a, middle, columns, own, id, -, related, named, selects, orders, -, -⟩ := h
  obtain ⟨-, joined, reached, mem⟩ := related.fits fits known
  rw [unfiltered] at related
  have unmoved' : middle.draft.remap = Remap.empty := related.1.quiet.remap.trans unmoved
  have selected := joined.addSelectors (a := a) (selects.visible mem named)
  have reached' := joined.knows_extends (Progress.Extends.addSelectors middle a columns) reached
  refine ⟨orders.quiet.remap.trans unmoved', orders.chain selected reached' unmoved' ?_⟩
  exact related.1.chain declared toOne fits known unmoved chain

/-- A relationship that leads to one resource cannot be filtered. -/
theorem unfiltered_of_joinRelated {filter? : Option Filter} {result : Table × Source}
    (declared : schema.relationship source.resourceType name = .ok relationship)
    (single : relationship.isToMany = false)
    (h : joinRelated schema source name filter? p = .ok (result, q)) : filter? = none := by
  have yields : Yields (joinRelated schema source name filter?) p (fun _ _ => filter? = none) := by
    cases filter? with
    | none => exact fun _ _ _ => rfl
    | some filter =>
      refine yields_lookup_bind fun found looked => ?_
      rw [declared] at looked
      cases looked
      rw [if_neg (by simp [single])]
      exact yields_fail
  exact yields _ _ h

end Compile

end Chains

namespace Fetch

open Compile (Yields yields_pure Chain)

variable {schema : Schema} {start : Table}

mutual

/-- **Relationships that lead to one resource each extend the chain of joins**, and nothing is
moved. -/
theorem yields_chain {table : Table} {p : Progress} : (fetch : Fetch) →
    p.Fits schema (.table start) → p.draft.Knows schema (.table start) table →
    fetch.reachesToMany schema table.resourceType = .ok false →
    p.draft.remap = Remap.empty → Chain schema start p.draft.joins →
    Yields (fetch.compile schema table) p (fun _ q =>
      q.draft.remap = Remap.empty ∧ Chain schema start q.draft.joins)
  | mk _ relationships, fits, known, single, unmoved, chain => by
    unfold Fetch.compile
    exact yields_chainAll relationships fits known single unmoved chain

theorem yields_chainAll {table : Table} {p : Progress} :
    (relationships : List (String × Fetch)) →
    p.Fits schema (.table start) → p.draft.Knows schema (.table start) table →
    anyToMany schema table.resourceType relationships = .ok false →
    p.draft.remap = Remap.empty → Chain schema start p.draft.joins →
    Yields (compileAll schema table relationships) p (fun _ q =>
      q.draft.remap = Remap.empty ∧ Chain schema start q.draft.joins)
  | [], _, _, _, unmoved, chain => yields_pure ⟨unmoved, chain⟩
  | (name, fetch) :: rest, fits, known, single, unmoved, chain => by
    obtain ⟨relationship, declared, toOne, below, others⟩ := of_anyToMany_false single
    unfold Fetch.compileAll
    refine ((Compile.yields_joinLayer table name fetch.layer).and
      (.of_ensures (Compile.ensures_joinLayer fits known name fetch.layer))).bind ?_
    rintro ⟨target, own⟩ q ⟨⟨⟨related, middle, joined, -⟩, -⟩, layerAt⟩
    have unfiltered := Compile.unfiltered_of_joinRelated declared toOne joined
    obtain ⟨unmoved', chain'⟩ := layerAt.chain unfiltered declared
      (Relationship.isToOne_of_not_isToMany toOne) fits known unmoved chain
    -- The table that was joined stores the target of the relationship.
    obtain ⟨joining, fits', reached, -⟩ := layerAt.grows fits known
    have leads : target.resourceType = relationship.target := by
      rw [layerAt.resourceType_eq fits known, Schema.targetOf, declared]
    rw [← leads] at below
    refine ((yields_chain fetch fits' reached below unmoved' chain').and
      (.of_ensures (fetch.ensures_compile fits' reached))).bind ?_
    rintro terms r ⟨⟨unmoved'', chain''⟩, becomes⟩
    obtain ⟨following, fits'', -⟩ := Becomes.grows fetch becomes fits' reached
    have back := fits.knows_extends (joining.trans following) known
    refine (yields_chainAll rest fits'' back others unmoved'' chain'').bind ?_
    exact fun after last done => yields_pure done

end

end Fetch

end ResourceQuery
