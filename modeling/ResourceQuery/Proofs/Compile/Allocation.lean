import Mathlib.Data.List.Perm.Basic
import ResourceQuery.Compile.Query
import ResourceQuery.Proofs.Compile.Yields
import ResourceQuery.Proofs.Schema.Tables
import ResourceQuery.Proofs.Sql.Occurrences

/-!
# How names are spent

Aliases and parameters are numbered as they come up, all over the compiler and from one pair of
counters.  This file keeps accounts of them: whatever a successful computation has taken from the
counters stands in its result or in the draft, each alias once, and the parameters in the order in
which they were taken.

## Main Definitions

- `Names.between`: the names given out between two counts.
- `Progress.Places`: each alias taken is the alias of one source in the result or the draft.
- `Progress.Spends`: moreover the parameters taken are those of the result, in order.

## Main Statements

- `Draft.assemble_occurrences`: a finished query has the aliases and parameters of its parts.
- `Compile.yields_correlated`: a query inside another one spends what it takes.
- `Filter.yields_compile`: so does the condition of a filter.
-/

namespace ResourceQuery

open Sql (Table Source Select Selector Entry Column Condition Operand OrderTerm OrderTarget Limit
  Parameter TableAlias)

/-! ### Accounts -/

/-- The names given out between two counts, in order. -/
def Names.between {α : Type} (name : Nat → α) (before after : Nat) : List α :=
  (List.range' (before + 1) (after - before)).map name

/-- An alias that has been given out. -/
def Names.aliasAt (n : Nat) : Option TableAlias := some ⟨n⟩

namespace Names

variable {α : Type} {name : Nat → α} {a b c : Nat}

@[simp] theorem between_self : between name a a = [] := by
  simp [between]

@[simp] theorem between_succ : between name a (a + 1) = [name (a + 1)] := by
  simp [between]

theorem between_append (name : Nat → α) (first : a ≤ b) (second : b ≤ c) :
    between name a b ++ between name b c = between name a c := by
  have start : b + 1 = a + 1 + 1 * (b - a) := by omega
  have count : c - a = (b - a) + (c - b) := by omega
  rw [between, between, between, ← List.map_append, count, start, List.range'_append]

end Names

/-- The aliases of the joined sources, with those inside them. -/
def Draft.aliases (d : Draft) : List (Option TableAlias) :=
  d.joins.flatMap (fun join => join.source.aliases)

/-- The parameters of the joined sources, in the order of the joins. -/
def Draft.parameters (d : Draft) : List Parameter :=
  d.joins.flatMap (fun join => join.source.parameters)

/-- A selector without queries and parameters. -/
def Sql.Selector.IsPlain (selector : Selector) : Prop :=
  selector.nodes = [] ∧ Sql.Piece.references selector.pieces = []

/-- Nothing but plain selectors is selected. -/
def Draft.SelectsPlainly (d : Draft) : Prop :=
  ∀ entry ∈ d.selectors, ∀ selector ∈ entry.2, selector.IsPlain

namespace Progress

/-- **Each alias that was taken is the alias of one source**, in a result that has the given aliases
or among the sources joined since. -/
structure Places (p q : Progress) (aliases : List (Option TableAlias)) : Prop where
  tables : p.names.tables ≤ q.names.tables
  placed : (aliases ++ q.draft.aliases).Perm
    (p.draft.aliases ++ Names.between Names.aliasAt p.names.tables q.names.tables)
  plain : p.draft.SelectsPlainly → q.draft.SelectsPlainly

/-- **Names that were taken are spent**: the aliases are placed, and the parameters are those of a
result, in the order in which they were taken.  None is hidden in the draft. -/
structure Spends (p q : Progress) (aliases : List (Option TableAlias))
    (parameters : List Parameter) : Prop extends Places p q aliases where
  count : p.names.parameters ≤ q.names.parameters
  named : parameters.map Parameter.name
    = Names.between Names.parameterName p.names.parameters q.names.parameters
  drafted : q.draft.parameters = p.draft.parameters

variable {p q r : Progress} {as bs : List (Option TableAlias)} {ps qs : List Parameter}

theorem Places.refl (p : Progress) : p.Places p [] :=
  ⟨Nat.le_refl _, by simp, fun plain => plain⟩

theorem Places.trans (first : p.Places q as) (second : q.Places r bs) :
    p.Places r (as ++ bs) := by
  refine ⟨Nat.le_trans first.tables second.tables, ?_, fun plain => second.plain (first.plain plain)⟩
  have one := List.perm_iff_count.mp first.placed
  have two := List.perm_iff_count.mp second.placed
  refine List.perm_iff_count.mpr fun a => ?_
  have one := one a
  have two := two a
  rw [← Names.between_append _ first.tables second.tables]
  simp only [List.count_append] at one two ⊢
  omega

theorem Spends.refl (p : Progress) : p.Spends p [] [] :=
  { toPlaces := .refl p
    count := Nat.le_refl _
    named := by simp
    drafted := rfl }

theorem Spends.trans (first : p.Spends q as ps) (second : q.Spends r bs qs) :
    p.Spends r (as ++ bs) (ps ++ qs) :=
  { toPlaces := first.toPlaces.trans second.toPlaces
    count := Nat.le_trans first.count second.count
    named := by
      rw [List.map_append, first.named, second.named,
        Names.between_append _ first.count second.count]
    drafted := second.drafted.trans first.drafted }

/-- Only the order of the joined sources and their selectors matter for the accounts. -/
theorem Spends.redraft {d : Draft} (joins : d.joins = p.draft.joins)
    (selectors : d.selectors = p.draft.selectors) : p.Spends ⟨p.names, d⟩ [] [] :=
  { tables := Nat.le_refl _
    placed := by simp [Draft.aliases, joins]
    plain := by simp [Draft.SelectsPlainly, selectors]
    count := Nat.le_refl _
    named := by simp
    drafted := by simp [Draft.parameters, joins] }

/-- A parameter is taken and stands in the result. -/
theorem Spends.parameter (p : Progress) (value : Sql.Value) :
    p.Spends ⟨⟨p.names.tables, p.names.parameters + 1⟩, p.draft⟩ []
      [⟨Names.parameterName (p.names.parameters + 1), value⟩] :=
  { tables := Nat.le_refl _
    placed := by simp
    plain := fun plain => plain
    count := Nat.le_succ _
    named := by simp
    drafted := rfl }

end Progress

/-! ### Finished queries -/

theorem Sql.Selector.allNodes_of_plain {selectors : List Selector}
    (plain : ∀ selector ∈ selectors, selector.IsPlain) : Selector.allNodes selectors = [] := by
  induction selectors with
  | nil => rfl
  | cons selector rest ih =>
    rw [Selector.allNodes, (plain selector List.mem_cons_self).1,
      ih fun other mem => plain other (List.mem_cons_of_mem _ mem), List.append_nil]

theorem Sql.Selector.flatMap_listPieces_of_plain {selectors : List Selector}
    (plain : ∀ selector ∈ selectors, selector.IsPlain) :
    (Selector.listPieces selectors).flatMap Sql.Piece.references = [] := by
  induction selectors with
  | nil => rfl
  | cons selector rest ih =>
    rw [Selector.listPieces, List.flatMap_cons, (plain selector List.mem_cons_self).2,
      ih fun other mem => plain other (List.mem_cons_of_mem _ mem), List.append_nil]

theorem Sql.Entry.flatMap_selectorPieces_of_plain {entries : List Entry}
    (plain : ∀ entry ∈ entries, ∀ selector ∈ entry.selectors, selector.IsPlain) :
    (Entry.selectorPieces entries).flatMap Sql.Piece.references = [] := by
  induction entries with
  | nil => rfl
  | cons entry rest ih =>
    obtain ⟨source, join?, selectors⟩ := entry
    have first := Selector.flatMap_listPieces_of_plain (plain _ List.mem_cons_self)
    rw [Entry.selectorPieces, List.flatMap_append, first,
      ih fun other mem => plain other (List.mem_cons_of_mem _ mem), List.append_nil]

/-- The aliases of a list of sources, from the aliases on each level. -/
theorem Sql.Entry.perm_aliases {entries : List Entry}
    (plain : ∀ entry ∈ entries, ∀ selector ∈ entry.selectors, selector.IsPlain) :
    (entries.map (fun entry => entry.source.alias?)
        ++ Select.aliasesOf (Entry.allNodes entries)).Perm
      (entries.flatMap (fun entry => entry.source.aliases)) := by
  induction entries with
  | nil => exact .refl _
  | cons entry rest ih =>
    obtain ⟨source, join?, selectors⟩ := entry
    have first := Selector.allNodes_of_plain (plain _ List.mem_cons_self)
    have others := List.perm_iff_count.mp
      (ih fun other mem => plain other (List.mem_cons_of_mem _ mem))
    refine List.perm_iff_count.mpr fun a => ?_
    have others := others a
    simp only [Entry.allNodes, first, Source.aliases, List.map_cons, List.flatMap_cons,
      List.append_nil, Select.aliasesOf_append, List.count_append, List.count_cons] at others ⊢
    omega

/-- The finished query selects plainly. -/
theorem Draft.plain_entries {d : Draft} (start : Source) {selectors : List Selector}
    (plain : d.SelectsPlainly) (plainly : ∀ selector ∈ selectors, selector.IsPlain) :
    ∀ entry ∈ d.entries start selectors, ∀ selector ∈ entry.selectors, selector.IsPlain := by
  intro entry mem selector listed
  rcases List.mem_cons.mp mem with rfl | mem
  · exact plainly selector listed
  · obtain ⟨join, -, rfl⟩ := List.mem_map.mp mem
    simp only [Draft.selectorsOf] at listed
    split at listed
    · rename_i a _
      cases found : d.selectors.lookup a with
      | none => simp [found] at listed
      | some selected =>
        obtain ⟨_, _, split, -⟩ := List.lookup_eq_some_iff.mp found
        refine plain (a, selected) (by rw [split]; simp) selector ?_
        simpa [found] using listed
    · cases listed

/-- **A finished query has the aliases and parameters of its parts**: the source it starts from,
the joined sources, the condition, the order and the limit. -/
theorem Draft.assemble_occurrences {d : Draft} {start : Source} {selectors : List Selector}
    {filter? : Option Condition} {order? : Option (List OrderTerm)} {limit? : Option Limit}
    {s : Select} (plain : d.SelectsPlainly) (plainly : ∀ selector ∈ selectors, selector.IsPlain)
    (h : d.assemble start selectors filter? order? limit? = .ok s) :
    (Select.aliasesOf s.nodes).Perm (start.aliases ++ d.aliases
        ++ Select.aliasesOf (Condition.optionNodes filter?)
        ++ Select.aliasesOf (OrderTerm.optionNodes order?))
      ∧ Sql.Piece.references s.pieces = start.parameters ++ d.parameters
        ++ filter?.toList.flatMap Condition.parameters
        ++ order?.toList.flatMap OrderTerm.allParameters
        ++ limit?.toList.flatMap Limit.parameters := by
  have all := Draft.plain_entries start plain plainly
  obtain ⟨aliases, parameters⟩ := Select.repair_occurrences h
  rw [aliases, parameters, Select.references_pieces, Entry.flatMap_selectorPieces_of_plain all]
  refine ⟨?_, ?_⟩
  · have own := List.perm_iff_count.mp (Entry.perm_aliases all)
    refine List.perm_iff_count.mpr fun a => ?_
    have own := own a
    simp only [Draft.entries, List.flatMap_cons, List.flatMap_map] at own
    simp only [Draft.entries, Draft.aliases, Select.nodes, Select.aliasesOf_cons,
      Select.aliasesOf_append, List.count_append] at own ⊢
    omega
  · simp [Draft.entries, Draft.parameters, List.flatMap_map]

/-! ### Following relationships -/

/-- A table is joined under the next alias. -/
theorem Progress.Spends.join {p : Progress} {d : Draft} {target : Table} {on : Sql.JoinOn}
    (named : target.tableAlias = ⟨p.names.tables + 1⟩)
    (joins : d.joins = p.draft.joins ++ [⟨.table target, on⟩])
    (selectors : d.selectors = p.draft.selectors) :
    p.Spends ⟨⟨p.names.tables + 1, p.names.parameters⟩, d⟩ [] [] :=
  { tables := Nat.le_succ _
    placed := by
      simp [Draft.aliases, joins, Source.aliases, Source.alias?, Source.nodes, named,
        Names.aliasAt]
    plain := by simp [Draft.SelectsPlainly, selectors]
    count := Nat.le_refl _
    named := by simp
    drafted := by simp [Draft.parameters, joins] }

theorem QueryShape.plain_selectors (shape : QueryShape) (table : Table) :
    ∀ selector ∈ shape.selectors table, selector.IsPlain := by
  intro selector mem
  cases shape with
  | columns =>
    obtain ⟨column, -, rfl⟩ := List.mem_map.mp mem
    exact ⟨rfl, by simp [Selector.pieces]⟩
  | count =>
    obtain rfl := List.mem_singleton.mp mem
    exact ⟨rfl, rfl⟩
  | one =>
    obtain rfl := List.mem_singleton.mp mem
    exact ⟨rfl, rfl⟩

/-- A query over a table that was named just before. -/
theorem Progress.Spends.query {p : Progress} {table : Table} {shape : QueryShape}
    {filter? : Option Condition} {last : Progress} {s : Select}
    (named : table.tableAlias = ⟨p.names.tables + 1⟩)
    (inside : Progress.Spends ⟨⟨p.names.tables + 1, p.names.parameters⟩, Draft.empty⟩ last
      (Select.aliasesOf (Condition.optionNodes filter?))
      (filter?.toList.flatMap Condition.parameters))
    (built : last.draft.assemble (.table table) (shape.selectors table) filter? none none = .ok s) :
    p.Spends ⟨last.names, p.draft⟩ (Select.aliasesOf s.nodes) (Sql.Piece.references s.pieces)
      ∧ Sql.Piece.references s.pieces = filter?.toList.flatMap Condition.parameters := by
  have plain : last.draft.SelectsPlainly := inside.plain (by simp [Draft.SelectsPlainly, Draft.empty])
  obtain ⟨aliases, parameters⟩ := Draft.assemble_occurrences plain (shape.plain_selectors table) built
  have tables : p.names.tables + 1 ≤ last.names.tables := inside.tables
  have drafted : last.draft.parameters = [] := inside.drafted
  have same : Sql.Piece.references s.pieces = filter?.toList.flatMap Condition.parameters := by
    simpa [drafted] using parameters
  refine ⟨⟨⟨Nat.le_of_succ_le tables, ?_, fun plain => plain⟩, inside.count, ?_, rfl⟩, same⟩
  · have own := List.perm_iff_count.mp aliases
    have below := List.perm_iff_count.mp inside.placed
    refine List.perm_iff_count.mpr fun a => ?_
    have own := own a
    have below := below a
    have whole := Names.between_append Names.aliasAt
      (Nat.le_add_right p.names.tables 1) tables
    simp only [← whole, Draft.aliases, Draft.empty, Source.aliases, Source.alias?, Source.nodes, named,
      Names.aliasAt, Names.between_succ, OrderTerm.optionNodes, Select.aliasesOf_nil,
      List.flatMap_nil, List.nil_append, List.append_nil, List.count_append, List.count_cons]
      at own below ⊢
    omega
  · rw [same]
    exact inside.named

/-- Equating two columns adds neither sources nor parameters to a query. -/
theorem Sql.Select.restrict_occurrences (s : Select) (outer inner : Column) :
    Select.aliasesOf (s.restrict (Condition.columnsEqual outer inner)).nodes
        = Select.aliasesOf s.nodes
      ∧ Sql.Piece.references (s.restrict (Condition.columnsEqual outer inner)).pieces
        = Sql.Piece.references s.pieces := by
  obtain ⟨entries, filter?, order?, limit?, alias?⟩ := s
  rw [Select.references_pieces, Select.references_pieces]
  cases filter? <;>
    simp [Select.restrict, Select.nodes, Condition.optionNodes, Condition.nodes, Operand.nodes,
      Condition.columnsEqual, Operand.parameters, Operand.pieces, Condition.all,
      Condition.nodes_combine, Condition.parameters_combine]

namespace Compile

variable {schema : Schema} {p : Progress}

theorem yields_joinRelationship (source : Table) (name : String) :
    Yields (joinRelationship schema source name) p (fun _ q => p.Spends q [] []) := by
  unfold joinRelationship
  refine yields_draft_bind ?_
  split
  · exact yields_pure (.refl p)
  · refine yields_lookup_bind fun relationship _ => yields_lookup_bind fun key _ => ?_
    refine yields_newTable_bind fun target htable => yields_tree_bind fun columns _ => ?_
    refine yields_tree_bind fun on _ => yields_changeDraft_bind (yields_pure ?_)
    exact .join (Schema.stores_of_table htable).2.1 rfl rfl

theorem yields_followToOne (source : Table) (path : Path) :
    Yields (followToOne schema source path) p (fun _ q => p.Spends q [] []) := by
  induction path generalizing source p with
  | nil => exact yields_pure (.refl p)
  | cons name rest ih =>
    refine yields_lookup_bind fun relationship _ => ?_
    split
    · refine (yields_joinRelationship source name).bind fun target q first => ?_
      exact (ih target).mono fun _ _ => first.trans
    · exact yields_fail

theorem yields_followToMany (source : Table) (path : Path) (place : PathUse) :
    Yields (followToMany schema source path place) p (fun _ q => p.Spends q [] []) := by
  unfold followToMany
  split
  · exact yields_fail
  · refine (yields_followToOne source _).bind fun owner q spent => ?_
    refine yields_lookup_bind fun relationship _ => ?_
    split
    · exact yields_pure spent
    · exact yields_fail

theorem yields_fieldColumn (source : Table) (path : Path) :
    Yields (fieldColumn schema source path) p (fun _ q => p.Spends q [] []) := by
  unfold fieldColumn
  split
  · exact yields_fail
  · refine (yields_followToOne source _).bind fun owner q spent => ?_
    exact yields_lift_bind fun info _ => yields_tree_bind fun column _ => yields_pure spent

/-- A query over a table spends the table's alias and what its condition takes.  What is known of
the parameters of the condition holds of those of the query. -/
theorem yields_queryTable {table : Table} (shape : QueryShape)
    {condition : Compile (Option Condition)} (known : List Parameter → Prop)
    (named : table.tableAlias = ⟨p.names.tables + 1⟩)
    (inside : ∀ p : Progress, Yields condition p (fun filter? q =>
      p.Spends q (Select.aliasesOf (Condition.optionNodes filter?))
        (filter?.toList.flatMap Condition.parameters)
      ∧ known (filter?.toList.flatMap Condition.parameters))) :
    Yields (queryTable table shape condition)
      ⟨⟨p.names.tables + 1, p.names.parameters⟩, p.draft⟩
      (fun s q => p.Spends q (Select.aliasesOf s.nodes) (Sql.Piece.references s.pieces)
        ∧ known (Sql.Piece.references s.pieces)) := by
  refine yields_inner_bind (inside _) ?_
  rintro filter? last ⟨spent, fact⟩
  refine yields_tree fun s built => ?_
  obtain ⟨spends, same⟩ := Progress.Spends.query named spent built
  exact ⟨spends, same ▸ fact⟩

/-- **A query over related rows spends what it takes.** -/
theorem yields_correlated (source : Table) (name : String) (shape : QueryShape)
    {condition : Table → Compile (Option Condition)} (known : List Parameter → Prop)
    (inside : ∀ target (p : Progress), Yields (condition target) p (fun filter? q =>
      p.Spends q (Select.aliasesOf (Condition.optionNodes filter?))
        (filter?.toList.flatMap Condition.parameters)
      ∧ known (filter?.toList.flatMap Condition.parameters))) :
    Yields (correlated schema source name shape condition) p (fun s q =>
      p.Spends q (Select.aliasesOf s.nodes) (Sql.Piece.references s.pieces)
        ∧ known (Sql.Piece.references s.pieces)) := by
  refine yields_lookup_bind fun relationship _ => yields_lookup_bind fun key _ => ?_
  refine yields_newTable_bind fun target htable => ?_
  have named := (Schema.stores_of_table htable).2.1
  refine (yields_queryTable shape known named (inside target)).bind fun s q spent => ?_
  refine yields_tree_bind fun columns _ => yields_pure ?_
  obtain ⟨aliases, parameters⟩ := s.restrict_occurrences columns.1 columns.2
  rw [aliases, parameters]
  exact spent

/-- A number of related rows is a query without parameters. -/
theorem yields_relatedCount (source : Table) (path : Path) (place : PathUse) :
    Yields (relatedCount schema source path place) p (fun s q =>
      p.Spends q (Select.aliasesOf s.nodes) [] ∧ Sql.Piece.references s.pieces = []) := by
  refine (yields_followToMany source path place).bind fun owner q first => ?_
  refine (yields_correlated owner.1 owner.2 .count (· = [])
    fun _ p => yields_pure (a := none) ⟨.refl p, rfl⟩).mono ?_
  rintro s r ⟨second, none_⟩
  exact ⟨by simpa [none_] using first.trans second, none_⟩

/-! ### Comparisons -/

/-- The queries inside a side of a comparison. -/
def PendingOperand.nodes : PendingOperand → List Select
  | .typed operand _ => operand.nodes
  | .constant _ | .null => []

/-- A side that gives the other its type has no parameters. -/
def PendingOperand.IsPlain : PendingOperand → Prop
  | .typed operand _ => operand.parameters = []
  | .constant _ | .null => True

theorem yields_pendingOperand (table : Table) (side : Expression) :
    Yields (pendingOperand schema table side) p (fun pending q =>
      p.Spends q (Select.aliasesOf pending.nodes) [] ∧ pending.IsPlain) := by
  cases side with
  | field path =>
    refine (yields_fieldColumn table path).bind fun found q spent => yields_pure ⟨spent, ?_⟩
    exact Column.references_pieces found.1
  | count path =>
    refine (yields_relatedCount table path .count).bind fun s q spent => yields_pure ⟨spent.1, ?_⟩
    exact (Sql.Piece.references_nested _).trans spent.2
  | constant value =>
    refine yields_pure ?_
    split
    · exact ⟨.refl p, trivial⟩
    · exact ⟨.refl p, trivial⟩
  | null => exact yields_pure ⟨.refl p, trivial⟩

theorem yields_finishOperand (type : OperandType) {pending : PendingOperand}
    (plain : pending.IsPlain) :
    Yields (finishOperand schema type pending) p (fun operand q =>
      p.Spends q [] operand.parameters ∧ operand.nodes = pending.nodes) := by
  cases pending with
  | typed operand type =>
    refine yields_pure ⟨?_, rfl⟩
    rw [show operand.parameters = [] from plain]
    exact .refl p
  | null => exact yields_pure ⟨.refl p, rfl⟩
  | constant value =>
    exact yields_lift_bind fun value _ => yields_newParameter_bind
      (yields_pure ⟨.parameter p value, rfl⟩)

theorem yields_comparison (table : Table) (kind : ComparisonKind) (left right : Expression) :
    Yields (comparison schema table kind left right) p (fun condition q =>
      p.Spends q (Select.aliasesOf condition.nodes) condition.parameters) := by
  refine (yields_pendingOperand table left).bind ?_
  rintro pendingLeft p₁ ⟨first, plainLeft⟩
  refine (yields_pendingOperand table right).bind ?_
  rintro pendingRight p₂ ⟨second, plainRight⟩
  split
  · exact yields_fail
  · rename_i type _
    refine (yields_finishOperand type plainLeft).bind ?_
    rintro operandLeft p₃ ⟨third, nodesLeft⟩
    refine (yields_finishOperand type plainRight).bind ?_
    rintro operandRight p₄ ⟨fourth, nodesRight⟩
    split
    · exact yields_fail
    · refine yields_pure ?_
      simpa [Condition.nodes, nodesLeft, nodesRight]
        using ((first.trans second).trans third).trans fourth

/-! ### Texts and lists of values -/

theorem yields_textMatch (table : Table) (path : Path) (text : String) (kind : Sql.MatchKind) :
    Yields (textMatch schema table path text kind) p (fun condition q =>
      p.Spends q (Select.aliasesOf condition.nodes) condition.parameters) := by
  refine (yields_fieldColumn table path).bind ?_
  rintro ⟨column, info⟩ q spent
  dsimp only
  split
  · refine yields_pure ?_
    simpa [Condition.nodes, Condition.parameters, Condition.pieces, Sql.Piece.parameter?] using spent
  · exact yields_fail

theorem yields_parameters (type : OperandType) (values : List Json) :
    Yields (parameters schema type values) p (fun given q => p.Spends q [] given) := by
  induction values generalizing p with
  | nil => exact yields_pure (.refl p)
  | cons value rest ih =>
    refine yields_lift_bind fun value _ => yields_newParameter_bind ?_
    refine ih.bind fun others q spent => yields_pure ?_
    exact (Progress.Spends.parameter p value).trans spent

/-- The terms of a list of values have the values as their parameters. -/
theorem occurrences_anyTerms (column : Column) (values : List Parameter) (withNull : Bool) :
    (Condition.any (anyTerms column values withNull)).nodes = []
      ∧ (Condition.any (anyTerms column values withNull)).parameters = values := by
  have null : (Condition.isNull column).nodes = [] ∧ (Condition.isNull column).parameters = [] := by
    simp [Condition.isNull, Condition.nodes, Operand.nodes, Operand.parameters, Operand.pieces,
      Sql.Piece.parameter?]
  have given := Condition.occurrences_equalsAny column values
  rw [Condition.any, Condition.nodes_combine, Condition.parameters_combine]
  cases values <;> cases withNull <;> simp [anyTerms, null, given]

theorem yields_anyOf (table : Table) (path : Path) (values : List Json) :
    Yields (anyOf schema table path values) p (fun condition q =>
      p.Spends q (Select.aliasesOf condition.nodes) condition.parameters) := by
  unfold anyOf
  split
  · exact yields_fail
  · refine (yields_fieldColumn table path).bind fun found q first => ?_
    refine (yields_parameters _ _).bind fun given r second => yields_pure ?_
    obtain ⟨nodes, parameters⟩ := occurrences_anyTerms found.1 given
      (values.any (fun v => v = .null))
    rw [nodes, parameters]
    exact first.trans second

end Compile

/-! ### Filters -/

namespace Filter

open Compile (Yields yields_pure yields_fail)

variable {schema : Schema}

mutual

/-- **The condition of a filter spends what compiling it takes.** -/
theorem yields_compile {table : Table} {p : Progress} : (filter : Filter) →
    Yields (filter.compile schema table) p (fun condition q =>
      p.Spends q (Select.aliasesOf condition.nodes) condition.parameters)
  | .comparison kind left right => Compile.yields_comparison table kind left right
  | .and terms => by
    unfold Filter.compile
    split
    · exact yields_fail
    · refine (yields_compileAll terms).bind fun conditions q spent => yields_pure ?_
      rwa [Condition.all, Condition.nodes_combine, Condition.parameters_combine]
  | .or terms => by
    unfold Filter.compile
    split
    · exact yields_fail
    · refine (yields_compileAll terms).bind fun conditions q spent => yields_pure ?_
      rwa [Condition.any, Condition.nodes_combine, Condition.parameters_combine]
  | .not term => by
    unfold Filter.compile
    refine (yields_compile term).bind fun condition q spent => yields_pure ?_
    simpa [Condition.nodes, Condition.parameters, Condition.pieces, Sql.Piece.parameter?] using spent
  | .textMatch field text kind => Compile.yields_textMatch table field text kind
  | .any field values => Compile.yields_anyOf table field values
  | .has relationship filter? => by
    unfold Filter.compile
    refine (Compile.yields_followToMany table relationship .has).bind fun owner q first => ?_
    refine (Compile.yields_correlated owner.1 owner.2 .one (fun _ => True)
      fun target p => (yields_compileOption filter?).mono fun _ _ spent => ⟨spent, trivial⟩).bind ?_
    rintro s r ⟨second, -⟩
    refine yields_pure ?_
    simpa [Condition.nodes, Condition.parameters, Condition.pieces, Sql.Piece.parameter?]
      using first.trans second
  | .isType _ _ => yields_fail

theorem yields_compileAll {table : Table} {p : Progress} : (filters : List Filter) →
    Yields (Filter.compileAll schema table filters) p (fun conditions q =>
      p.Spends q (Select.aliasesOf (conditions.flatMap Condition.nodes))
        (conditions.flatMap Condition.parameters))
  | [] => yields_pure (.refl p)
  | filter :: rest => by
    unfold Filter.compileAll
    refine (yields_compile filter).bind fun condition q first => ?_
    refine (yields_compileAll rest).bind fun conditions r second => yields_pure ?_
    simpa using first.trans second

theorem yields_compileOption {table : Table} {p : Progress} : (filter? : Option Filter) →
    Yields (Filter.compileOption schema table filter?) p (fun condition? q =>
      p.Spends q (Select.aliasesOf (Condition.optionNodes condition?))
        (condition?.toList.flatMap Condition.parameters))
  | none => yields_pure (.refl p)
  | some filter => by
    unfold Filter.compileOption
    refine (yields_compile filter).bind fun condition q spent => yields_pure ?_
    simpa [Condition.optionNodes] using spent

end

end Filter

/-! ### Orders and pages -/

section Orders

variable {schema : Schema} {p : Progress}

/-- A criterion is placed, and it has no parameters. -/
theorem SortElement.yields_compile (table : Table) (element : SortElement) :
    Compile.Yields (element.compile schema table) p (fun term q =>
      p.Spends q (Select.aliasesOf term.target.nodes) [] ∧ term.target.parameters = []) := by
  unfold SortElement.compile
  split
  · refine (Compile.yields_fieldColumn table _).bind ?_
    rintro ⟨column, info⟩ q spent
    have bare : (OrderTarget.column column).parameters = [] := Column.references_pieces column
    dsimp only
    split
    · refine Compile.yields_changeDraft_bind (Compile.yields_pure ⟨?_, bare⟩)
      refine spent.trans (.redraft ?_ ?_) <;>
      · unfold Draft.addSortColumn
        split <;> rfl
    · exact Compile.yields_pure ⟨spent, bare⟩
  · refine (Compile.yields_relatedCount table _ .sort).bind fun s q spent => ?_
    refine Compile.yields_pure ⟨spent.1, ?_⟩
    exact (Sql.Piece.references_nested _).trans spent.2

namespace Compile

theorem yields_orderTerms (table : Table) (sort : List SortElement) :
    Yields (orderTerms schema table sort) p (fun terms q =>
      p.Spends q (Select.aliasesOf (OrderTerm.allNodes terms)) []
        ∧ OrderTerm.allParameters terms = []) := by
  induction sort generalizing p with
  | nil => exact yields_pure ⟨.refl p, rfl⟩
  | cons element rest ih =>
    refine (element.yields_compile table).bind ?_
    rintro term q ⟨first, bare⟩
    refine ih.bind ?_
    rintro others r ⟨second, bares⟩
    refine yields_pure ⟨?_, by simp [bare, bares]⟩
    obtain ⟨target, descending⟩ := term
    simpa [OrderTerm.allNodes] using first.trans second

/-- The criteria around a page are those of the page, or compiled anew. -/
theorem yields_outerTerms (table : Table) {terms : List OrderTerm} (sort : List SortElement)
    (bare : OrderTerm.allParameters terms = []) :
    Yields (outerTerms schema table terms sort) p (fun outer q =>
      p.Spends q (Select.aliasesOf (OrderTerm.allNodes outer)) []
        ∧ OrderTerm.allParameters outer = []) := by
  induction terms generalizing sort p with
  | nil => exact yields_pure ⟨.refl p, rfl⟩
  | cons term terms ih =>
    cases sort with
    | nil => exact yields_pure ⟨.refl p, rfl⟩
    | cons element sort =>
      rw [OrderTerm.allParameters_cons, List.append_eq_nil_iff] at bare
      -- Whichever way the first criterion is found, the others follow in the same way.
      have rest : ∀ outer q, p.Spends q (Select.aliasesOf outer.target.nodes) []
            ∧ outer.target.parameters = [] →
          Yields (outerTerms schema table terms sort >>= fun others => pure (outer :: others)) q
            (fun outer r => p.Spends r (Select.aliasesOf (OrderTerm.allNodes outer)) []
              ∧ OrderTerm.allParameters outer = []) := by
        rintro ⟨target, descending⟩ q ⟨first, bareOuter⟩
        refine (ih sort bare.2).bind ?_
        rintro others r ⟨second, bareOthers⟩
        refine yields_pure ⟨?_, by simp [bareOuter, bareOthers]⟩
        simpa [OrderTerm.allNodes] using first.trans second
      unfold outerTerms
      dsimp only
      split
      · rename_i column same
        refine (yields_pure ⟨?_, bare.1⟩).bind rest
        rw [same]
        exact .refl p
      · exact (element.yields_compile table).bind rest

theorem yields_pagination (settings : QuerySettings) (page : Pagination) :
    Yields (page.compile settings) p (fun limit q => p.Spends q [] limit.parameters) := by
  unfold Pagination.compile
  dsimp only
  split
  · exact yields_fail
  · split
    · exact yields_fail
    · refine yields_newParameter_bind ?_
      split
      · refine yields_newParameter_bind (yields_pure ?_)
        exact (Progress.Spends.parameter p _).trans (Progress.Spends.parameter _ _)
      · exact yields_pure (.parameter p _)

end Compile

end Orders

end ResourceQuery
