import ResourceQuery.Proofs.Compile.Numbering
import ResourceQuery.Proofs.Sql.NormalForm

/-!
# Compiled conditions are in normal form

Conditions are built in many places: from the terms of a filter, from lists of values, from the keys
of relationships and from comparisons.  Each place keeps the normal form, because an empty list of
terms or values is refused, because null is refused where values are ordered, and because one side
of a comparison is a field or a number.

## Main Definitions

- `Condition.IsNormalInside`: a condition and the queries inside it are in normal form.
- `Draft.IsNormal`: so are the sources joined so far.

## Main Statements

- `Filter.normal_compile`: the condition of a filter is in normal form.
- `Fetch.normal_compile`: so is everything that is followed.
- `Request.compile_normal`: so are the queries of a plan.
-/

namespace ResourceQuery

open Sql (Table Source Select Selector Entry Column Condition Operand OrderTerm Limit)
open Sql.Select (AllNormal)

/-- **A condition and the queries inside it are in normal form.** -/
def Sql.Condition.IsNormalInside (c : Condition) : Prop :=
  c.isNormal = true ∧ AllNormal c.nodes

/-- **Terms in normal form are combined into a condition in normal form**, with the queries inside
them. -/
theorem Sql.Condition.isNormalInside_combine (op : Sql.LogicalOp) {terms : List Condition}
    (some : terms ≠ []) (normal : ∀ term ∈ terms, term.IsNormalInside) :
    (Condition.combine op terms).IsNormalInside := by
  refine ⟨Condition.isNormal_combine op some fun term mem => (normal term mem).1, ?_⟩
  rw [Condition.nodes_combine, Select.allNormal_flatMap]
  exact fun term mem => (normal term mem).2

/-! ### Queries under construction -/

/-- **The sources joined so far are in normal form**, and nothing but columns is selected. -/
structure Draft.IsNormal (d : Draft) : Prop where
  joins : ∀ join ∈ d.joins, AllNormal join.source.nodes
  plain : d.SelectsPlainly

namespace Draft

theorem isNormal_empty : Draft.empty.IsNormal :=
  ⟨nofun, nofun⟩

/-- One more source in normal form is joined. -/
theorem IsNormal.join {d d' : Draft} (normal : d.IsNormal) {join : Join}
    (new : AllNormal join.source.nodes) (joins : d'.joins = d.joins ++ [join])
    (selectors : d'.selectors = d.selectors) : d'.IsNormal := by
  refine ⟨?_, ?_⟩
  · rw [joins]
    intro other mem
    rcases List.mem_append.mp mem with mem | mem
    · exact normal.joins other mem
    · rw [List.mem_singleton.mp mem]
      exact new
  · simpa [SelectsPlainly, selectors] using normal.plain

/-- Only joins and selectors matter. -/
theorem IsNormal.redraft {d d' : Draft} (normal : d.IsNormal) (joins : d'.joins = d.joins)
    (selectors : d'.selectors = d.selectors) : d'.IsNormal :=
  ⟨by rw [joins]; exact normal.joins, by simpa [SelectsPlainly, selectors] using normal.plain⟩

end Draft

theorem Sql.Entry.allNormal_of_plain {entries : List Entry}
    (plain : ∀ entry ∈ entries, ∀ selector ∈ entry.selectors, selector.IsPlain)
    (normal : ∀ entry ∈ entries, AllNormal entry.source.nodes) :
    AllNormal (Entry.allNodes entries) := by
  induction entries with
  | nil => exact Select.allNormal_nil
  | cons entry rest ih =>
    obtain ⟨source, join?, selectors⟩ := entry
    rw [Entry.allNodes, Selector.allNodes_of_plain (plain _ (.head _)), List.append_nil,
      Select.allNormal_append]
    exact ⟨normal _ (.head _), ih (fun other mem => plain other (.tail _ mem))
      fun other mem => normal other (.tail _ mem)⟩

/-- **A finished query is in normal form if its parts are.** -/
theorem Draft.IsNormal.assemble {d : Draft} (normal : d.IsNormal) {start : Source}
    (startNormal : AllNormal start.nodes) {selectors : List Selector}
    (plain : ∀ selector ∈ selectors, selector.IsPlain) {filter? : Option Condition}
    (filtered : ∀ condition ∈ filter?, condition.IsNormalInside)
    {order? : Option (List OrderTerm)} (ordered : AllNormal (OrderTerm.optionNodes order?))
    {limit? : Option Limit} {s : Select}
    (built : d.assemble start selectors filter? order? limit? = .ok s) : AllNormal s.nodes := by
  refine AllNormal.repair ((Select.allNormal_nodes _).mpr ⟨?_, ?_, ?_, ordered⟩) built
  · exact fun condition mem => (filtered condition mem).1
  · refine Entry.allNormal_of_plain (Draft.plain_entries start normal.plain plain) ?_
    intro entry mem
    rcases List.mem_cons.mp mem with rfl | mem
    · exact startNormal
    · obtain ⟨join, listed, rfl⟩ := List.mem_map.mp mem
      exact normal.joins join listed
  · cases filter? with
    | none => exact Select.allNormal_nil
    | some condition => exact (filtered condition rfl).2

theorem Sql.Source.allNormal_ofSelect {s : Select} {a : Sql.TableAlias} {source : Source}
    (normal : AllNormal s.nodes) (built : Source.ofSelect s a = .ok source) :
    AllNormal source.nodes := by
  unfold Source.ofSelect at built
  split at built
  · cases built
  · cases built
    rw [Source.nodes]
    exact (Select.allNormal_nodes _).mpr ((Select.allNormal_nodes s).mp normal)

/-! ### Following relationships -/

namespace Compile

variable {schema : Schema} {p : Progress}

theorem normal_joinRelationship (normal : p.draft.IsNormal) (source : Table) (name : String) :
    Yields (joinRelationship schema source name) p (fun _ q => q.draft.IsNormal) := by
  unfold joinRelationship
  refine yields_draft_bind ?_
  split
  · exact yields_pure normal
  · refine yields_lookup_bind fun relationship _ => yields_lookup_bind fun key _ => ?_
    refine yields_newTable_bind fun target _ => yields_tree_bind fun columns _ => ?_
    refine yields_tree_bind fun on _ => yields_changeDraft_bind (yields_pure ?_)
    refine normal.join ?_ rfl rfl
    exact Select.allNormal_nil

theorem normal_followToOne (normal : p.draft.IsNormal) (source : Table) (path : Path) :
    Yields (followToOne schema source path) p (fun _ q => q.draft.IsNormal) := by
  induction path generalizing source p with
  | nil => exact yields_pure normal
  | cons name rest ih =>
    refine yields_lookup_bind fun relationship _ => ?_
    split
    · refine (normal_joinRelationship normal source name).bind fun target q normal => ?_
      exact ih normal target
    · exact yields_fail

theorem normal_followToMany (normal : p.draft.IsNormal) (source : Table) (path : Path)
    (place : PathUse) :
    Yields (followToMany schema source path place) p (fun _ q => q.draft.IsNormal) := by
  unfold followToMany
  split
  · exact yields_fail
  · refine (normal_followToOne normal source _).bind fun owner q normal => ?_
    refine yields_lookup_bind fun relationship _ => ?_
    split
    · exact yields_pure normal
    · exact yields_fail

theorem normal_fieldColumn (normal : p.draft.IsNormal) (source : Table) (path : Path) :
    Yields (fieldColumn schema source path) p (fun _ q => q.draft.IsNormal) := by
  unfold fieldColumn
  split
  · exact yields_fail
  · refine (normal_followToOne normal source _).bind fun owner q normal => ?_
    exact yields_lift_bind fun info _ => yields_tree_bind fun column _ => yields_pure normal

/-- A query over a table has a draft of its own. -/
theorem normal_queryTable (normal : p.draft.IsNormal) {table : Table} (shape : QueryShape)
    {condition : Compile (Option Condition)}
    (inside : ∀ p : Progress, p.draft.IsNormal → Yields condition p (fun filter? q =>
      q.draft.IsNormal ∧ ∀ condition ∈ filter?, condition.IsNormalInside)) :
    Yields (queryTable table shape condition) p (fun s q =>
      q.draft.IsNormal ∧ AllNormal s.nodes) := by
  refine yields_inner_bind (inside _ Draft.isNormal_empty) ?_
  rintro filter? last ⟨drafted, filtered⟩
  refine yields_tree fun s built => ⟨normal, ?_⟩
  refine drafted.assemble ?_ (shape.plain_selectors table) filtered ?_ built
  · exact Select.allNormal_nil
  · exact Select.allNormal_nil

/-- A query over related rows is restricted by the key of the relationship. -/
theorem normal_correlated (normal : p.draft.IsNormal) (source : Table) (name : String)
    (shape : QueryShape) {condition : Table → Compile (Option Condition)}
    (inside : ∀ target (p : Progress), p.draft.IsNormal →
      Yields (condition target) p (fun filter? q =>
        q.draft.IsNormal ∧ ∀ condition ∈ filter?, condition.IsNormalInside)) :
    Yields (correlated schema source name shape condition) p (fun s q =>
      q.draft.IsNormal ∧ AllNormal s.nodes) := by
  refine yields_lookup_bind fun relationship _ => yields_lookup_bind fun key _ => ?_
  refine yields_newTable_bind fun target _ => ?_
  refine (normal_queryTable (p := ⟨⟨p.names.tables + 1, p.names.parameters⟩, p.draft⟩) normal shape
    (inside target)).bind ?_
  rintro s q ⟨drafted, queried⟩
  refine yields_tree_bind fun columns _ => yields_pure ⟨drafted, ?_⟩
  exact queried.restrict (Condition.isNormal_columnsEqual _ _) Select.allNormal_nil

theorem normal_relatedCount (normal : p.draft.IsNormal) (source : Table) (path : Path)
    (place : PathUse) :
    Yields (relatedCount schema source path place) p (fun s q =>
      q.draft.IsNormal ∧ AllNormal s.nodes) := by
  refine (normal_followToMany normal source path place).bind fun owner q normal => ?_
  exact normal_correlated normal owner.1 owner.2 .count
    fun _ p normal => yields_pure (a := none) ⟨normal, nofun⟩

/-! ### Comparisons -/

/-- A side that has a type is not null. -/
def PendingOperand.IsNormal : PendingOperand → Prop
  | .typed operand _ => operand.isNull = false ∧ AllNormal operand.nodes
  | .constant _ | .null => True

theorem normal_pendingOperand (normal : p.draft.IsNormal) (table : Table) (side : Expression) :
    Yields (pendingOperand schema table side) p (fun pending q =>
      q.draft.IsNormal ∧ pending.IsNormal) := by
  cases side with
  | field path =>
    refine (normal_fieldColumn normal table path).bind fun found q normal => ?_
    exact yields_pure ⟨normal, rfl, Select.allNormal_nil⟩
  | count path =>
    refine (normal_relatedCount normal table path .count).bind ?_
    rintro s q ⟨normal, counted⟩
    exact yields_pure ⟨normal, rfl, counted⟩
  | constant value =>
    refine yields_pure ⟨normal, ?_⟩
    split
    · trivial
    · trivial
  | null => exact yields_pure ⟨normal, trivial⟩

theorem normal_finishOperand (normal : p.draft.IsNormal) (type : OperandType)
    {pending : PendingOperand} (side : pending.IsNormal) :
    Yields (finishOperand schema type pending) p (fun operand q =>
      q.draft.IsNormal ∧ AllNormal operand.nodes
        ∧ (pending.type?.isSome = true → operand.isNull = false)) := by
  cases pending with
  | typed operand type => exact yields_pure ⟨normal, side.2, fun _ => side.1⟩
  | null => exact yields_pure ⟨normal, Select.allNormal_nil, nofun⟩
  | constant value =>
    exact yields_lift_bind fun value _ => yields_newParameter_bind
      (yields_pure ⟨normal, Select.allNormal_nil, nofun⟩)

/-- **A comparison is in normal form**: one of its sides has a type, and null is refused where
values are ordered. -/
theorem normal_comparison (normal : p.draft.IsNormal) (table : Table) (kind : ComparisonKind)
    (left right : Expression) :
    Yields (comparison schema table kind left right) p (fun condition q =>
      q.draft.IsNormal ∧ condition.IsNormalInside) := by
  refine (normal_pendingOperand normal table left).bind ?_
  rintro pendingLeft p₁ ⟨normal, sideLeft⟩
  refine (normal_pendingOperand normal table right).bind ?_
  rintro pendingRight p₂ ⟨normal, sideRight⟩
  split
  · exact yields_fail
  · rename_i type typed
    refine (normal_finishOperand normal type sideLeft).bind ?_
    rintro operandLeft p₃ ⟨normal, insideLeft, givenLeft⟩
    refine (normal_finishOperand normal type sideRight).bind ?_
    rintro operandRight p₄ ⟨normal, insideRight, givenRight⟩
    split
    · exact yields_fail
    · rename_i allowed
      refine yields_pure ⟨normal, Condition.isNormal_comparison.mpr ⟨?_, ?_⟩, ?_⟩
      · cases hleft : pendingLeft.type? with
        | some type => rw [givenLeft (by rw [hleft]; rfl), Bool.false_and]
        | none =>
          rw [hleft] at typed
          have hright : pendingRight.type? = some type := typed
          rw [givenRight (by rw [hright]; rfl), Bool.and_false]
      · intro null
        have equals : kind = .equals := by simpa [null] using allowed
        rw [equals]
        rfl
      · rw [Condition.nodes, Select.allNormal_append]
        exact ⟨insideLeft, insideRight⟩

/-! ### Texts and lists of values -/

theorem normal_textMatch (normal : p.draft.IsNormal) (table : Table) (path : Path) (text : String)
    (kind : Sql.MatchKind) :
    Yields (textMatch schema table path text kind) p (fun condition q =>
      q.draft.IsNormal ∧ condition.IsNormalInside) := by
  refine (normal_fieldColumn normal table path).bind ?_
  rintro ⟨column, info⟩ q normal
  dsimp only
  split
  · exact yields_pure ⟨normal, rfl, Select.allNormal_nil⟩
  · exact yields_fail

theorem normal_parameters (normal : p.draft.IsNormal) (type : OperandType) (values : List Json) :
    Yields (parameters schema type values) p (fun given q =>
      q.draft.IsNormal ∧ given.length = values.length) := by
  induction values generalizing p with
  | nil => exact yields_pure ⟨normal, rfl⟩
  | cons value rest ih =>
    refine yields_lift_bind fun value _ => yields_newParameter_bind ?_
    refine (ih (p := ⟨⟨p.names.tables, p.names.parameters + 1⟩, p.draft⟩) normal).bind ?_
    rintro others q ⟨normal, count⟩
    exact yields_pure ⟨normal, congrArg Nat.succ count⟩

/-- The terms of a list of values: there is one for the values, one for null, or both. -/
theorem normal_anyTerms (column : Column) {values : List Sql.Parameter} {withNull : Bool}
    (some : values ≠ [] ∨ withNull = true) :
    anyTerms column values withNull ≠ []
      ∧ ∀ term ∈ anyTerms column values withNull, term.isNormal = true := by
  unfold anyTerms
  refine ⟨?_, fun term mem => ?_⟩
  · rcases some with given | null
    · simp [given]
    · simp [null]
  · rcases List.mem_append.mp mem with mem | mem
    · split at mem
      · cases mem
      · rename_i given
        rw [List.mem_singleton.mp mem]
        exact Condition.isNormal_equalsAny column (by simpa using given)
    · split at mem
      · rw [List.mem_singleton.mp mem]
        exact Condition.isNormal_isNull column
      · cases mem

theorem normal_anyOf (normal : p.draft.IsNormal) (table : Table) (path : Path)
    (values : List Json) :
    Yields (anyOf schema table path values) p (fun condition q =>
      q.draft.IsNormal ∧ condition.IsNormalInside) := by
  unfold anyOf
  split
  · exact yields_fail
  · rename_i some
    refine (normal_fieldColumn normal table path).bind fun found q normal => ?_
    refine (normal_parameters normal _ _).bind ?_
    rintro given r ⟨normal, count⟩
    -- The first value is given as a parameter, unless it is null.
    have any : given ≠ [] ∨ values.any (fun v => v = .null) = true := by
      obtain ⟨value, others, rfl⟩ :=
        List.exists_cons_of_ne_nil (by simpa using some : values ≠ [])
      by_cases null : value = .null
      · exact .inr (by simp [null])
      · left
        intro nothing
        simp [nothing, null] at count
    obtain ⟨nonempty, terms⟩ := normal_anyTerms found.1 any
    refine yields_pure ⟨normal, Condition.isNormal_combine .or nonempty terms, ?_⟩
    rw [(occurrences_anyTerms found.1 given _).1]
    exact Select.allNormal_nil

end Compile

/-! ### Filters -/

namespace Filter

open Compile (Yields yields_pure yields_fail)

variable {schema : Schema}

/-- The conditions of several filters are combined, if there are any. -/
theorem normal_combine {table : Table} {p : Progress} (op : Sql.LogicalOp) {terms : List Filter}
    (some : terms ≠ [])
    (compiled : Yields (Filter.compileAll schema table terms) p (fun conditions q =>
      q.draft.IsNormal ∧ (terms ≠ [] → conditions ≠ [])
        ∧ ∀ condition ∈ conditions, condition.IsNormalInside)) :
    Yields (do return Condition.combine op (← Filter.compileAll schema table terms)) p
      (fun condition q => q.draft.IsNormal ∧ condition.IsNormalInside) := by
  refine compiled.bind ?_
  rintro conditions q ⟨normal, nonempty, inside⟩
  exact yields_pure ⟨normal, Condition.isNormalInside_combine op (nonempty some) inside⟩

mutual

/-- **The condition of a filter is in normal form**, at every depth. -/
theorem normal_compile {table : Table} {p : Progress} : (filter : Filter) → p.draft.IsNormal →
    Yields (filter.compile schema table) p (fun condition q =>
      q.draft.IsNormal ∧ condition.IsNormalInside)
  | .comparison kind left right, normal => Compile.normal_comparison normal table kind left right
  | .and terms, normal => by
    unfold Filter.compile
    split
    · exact yields_fail
    · rename_i some
      exact normal_combine .and (by simpa using some) (normal_compileAll terms normal)
  | .or terms, normal => by
    unfold Filter.compile
    split
    · exact yields_fail
    · rename_i some
      exact normal_combine .or (by simpa using some) (normal_compileAll terms normal)
  | .not term, normal => by
    unfold Filter.compile
    exact (normal_compile term normal).bind fun condition q holds => yields_pure holds
  | .textMatch field text kind, normal => Compile.normal_textMatch normal table field text kind
  | .any field values, normal => Compile.normal_anyOf normal table field values
  | .has relationship filter?, normal => by
    unfold Filter.compile
    refine (Compile.normal_followToMany normal table relationship .has).bind
      fun owner q normal => ?_
    refine (Compile.normal_correlated normal owner.1 owner.2 .one
      fun target p normal => normal_compileOption filter? normal).bind ?_
    rintro s r ⟨normal, queried⟩
    exact yields_pure ⟨normal, rfl, queried⟩
  | .isType _ _, _ => yields_fail

theorem normal_compileAll {table : Table} {p : Progress} : (filters : List Filter) →
    p.draft.IsNormal →
    Yields (Filter.compileAll schema table filters) p (fun conditions q =>
      q.draft.IsNormal ∧ (filters ≠ [] → conditions ≠ [])
        ∧ ∀ condition ∈ conditions, condition.IsNormalInside)
  | [], normal => yields_pure ⟨normal, absurd rfl, nofun⟩
  | filter :: rest, normal => by
    unfold Filter.compileAll
    refine (normal_compile filter normal).bind ?_
    rintro condition q ⟨normal, first⟩
    refine (normal_compileAll rest normal).bind ?_
    rintro conditions r ⟨normal, -, others⟩
    exact yields_pure ⟨normal, fun _ => List.cons_ne_nil _ _,
      List.forall_mem_cons.mpr ⟨first, others⟩⟩

theorem normal_compileOption {table : Table} {p : Progress} : (filter? : Option Filter) →
    p.draft.IsNormal →
    Yields (Filter.compileOption schema table filter?) p (fun condition? q =>
      q.draft.IsNormal ∧ ∀ condition ∈ condition?, condition.IsNormalInside)
  | none, normal => yields_pure ⟨normal, nofun⟩
  | some filter, normal => by
    unfold Filter.compileOption
    refine (normal_compile filter normal).bind ?_
    rintro condition q ⟨normal, inside⟩
    refine yields_pure ⟨normal, ?_⟩
    rintro _ ⟨⟩
    exact inside

end

end Filter

/-! ### Orders and pages -/

section Orders

variable {schema : Schema} {p : Progress}

theorem SortElement.normal_compile (normal : p.draft.IsNormal) (table : Table)
    (element : SortElement) :
    Compile.Yields (element.compile schema table) p (fun term q =>
      q.draft.IsNormal ∧ AllNormal term.target.nodes) := by
  unfold SortElement.compile
  split
  · refine (Compile.normal_fieldColumn normal table _).bind ?_
    rintro ⟨column, info⟩ q normal
    dsimp only
    split
    · refine Compile.yields_changeDraft_bind (Compile.yields_pure ⟨?_, Select.allNormal_nil⟩)
      refine normal.redraft ?_ ?_ <;>
      · unfold Draft.addSortColumn
        split <;> rfl
    · exact Compile.yields_pure ⟨normal, Select.allNormal_nil⟩
  · refine (Compile.normal_relatedCount normal table _ .sort).bind ?_
    rintro s q ⟨normal, counted⟩
    exact Compile.yields_pure ⟨normal, counted⟩

namespace Compile

theorem normal_orderTerms (normal : p.draft.IsNormal) (table : Table) (sort : List SortElement) :
    Yields (orderTerms schema table sort) p (fun terms q =>
      q.draft.IsNormal ∧ AllNormal (OrderTerm.allNodes terms)) := by
  induction sort generalizing p with
  | nil => exact yields_pure ⟨normal, Select.allNormal_nil⟩
  | cons element rest ih =>
    refine (element.normal_compile normal table).bind ?_
    rintro ⟨target, descending⟩ q ⟨normal, first⟩
    refine (ih normal).bind ?_
    rintro others r ⟨normal, later⟩
    exact yields_pure ⟨normal, Select.allNormal_append.mpr ⟨first, later⟩⟩

theorem normal_outerTerms (normal : p.draft.IsNormal) (table : Table) (terms : List OrderTerm)
    (sort : List SortElement) :
    Yields (outerTerms schema table terms sort) p (fun outer q =>
      q.draft.IsNormal ∧ AllNormal (OrderTerm.allNodes outer)) := by
  induction terms generalizing sort p with
  | nil => exact yields_pure ⟨normal, Select.allNormal_nil⟩
  | cons term terms ih =>
    cases sort with
    | nil => exact yields_pure ⟨normal, Select.allNormal_nil⟩
    | cons element sort =>
      have rest : ∀ (outer : OrderTerm) (q : Progress),
          q.draft.IsNormal ∧ AllNormal outer.target.nodes →
          Yields (outerTerms schema table terms sort >>= fun others => pure (outer :: others)) q
            (fun outer r => r.draft.IsNormal ∧ AllNormal (OrderTerm.allNodes outer)) := by
        rintro ⟨target, descending⟩ q ⟨normal, first⟩
        refine (ih normal sort).bind ?_
        rintro others r ⟨normal, later⟩
        exact yields_pure ⟨normal, Select.allNormal_append.mpr ⟨first, later⟩⟩
      unfold outerTerms
      dsimp only
      split
      · rename_i column same
        refine (yields_pure ⟨normal, ?_⟩).bind rest
        rw [same]
        exact Select.allNormal_nil
      · exact (element.normal_compile normal table).bind rest

/-! ### Relationships -/

theorem normal_joinFiltered (normal : p.draft.IsNormal) (source : Table) (name : String)
    (filter : Filter) :
    Yields (joinFiltered schema source name filter) p (fun _ q => q.draft.IsNormal) := by
  refine yields_lookup_bind fun relationship _ => ?_
  split
  · refine yields_lookup_bind fun key _ => yields_newTable_bind fun base _ => ?_
    refine (normal_queryTable (p := ⟨⟨p.names.tables + 1, p.names.parameters⟩, p.draft⟩) normal
      .columns fun p => Filter.normal_compileOption (some filter)).bind ?_
    rintro s q ⟨normal, queried⟩
    refine yields_newAlias_bind (yields_tree_bind fun derived built => ?_)
    refine yields_changeDraft_bind (yields_tree_bind fun columns _ => ?_)
    refine yields_tree_bind fun on _ => yields_changeDraft_bind (yields_pure ?_)
    refine normal.join ?_ rfl rfl
    exact Source.allNormal_ofSelect queried built
  · exact yields_fail

theorem normal_joinRelated (normal : p.draft.IsNormal) (source : Table) (name : String)
    (filter? : Option Filter) :
    Yields (joinRelated schema source name filter?) p (fun _ q => q.draft.IsNormal) := by
  cases filter? with
  | some filter => exact normal_joinFiltered normal source name filter
  | none =>
    exact (normal_joinRelationship normal source name).bind fun table q normal => yields_pure normal

theorem normal_selectFrom (normal : p.draft.IsNormal) (source : Source) {columns : List Selector}
    (plain : ∀ selector ∈ columns, selector.IsPlain) :
    Yields (selectFrom source columns) p (fun _ q => q.draft.IsNormal) := by
  unfold selectFrom
  split
  · refine yields_changeDraft ⟨normal.joins, ?_⟩
    intro entry mem selector listed
    rcases Draft.mem_appendSelectors mem listed with new | ⟨old, hold, listed⟩
    · exact plain selector new
    · exact normal.plain old hold selector listed
  · exact yields_pure normal

theorem normal_joinLayer (normal : p.draft.IsNormal) (source : Table) (name : String)
    (layer : Layer) :
    Yields (joinLayer schema source name layer) p (fun result q =>
      q.draft.IsNormal ∧ AllNormal (OrderTerm.allNodes result.2)) := by
  refine yields_lookup_bind fun relationship _ => ?_
  refine (normal_joinRelated normal source name layer.filter?).bind ?_
  rintro ⟨table, provider⟩ q normal
  refine (yields_selectors table provider layer.selection?).bind ?_
  rintro columns q ⟨rfl, plain⟩
  refine (normal_selectFrom normal provider plain).bind fun _ q normal => ?_
  refine (normal_orderTerms normal table _).bind ?_
  rintro terms r ⟨normal, ordered⟩
  split
  · refine yields_tree_bind fun id _ => yields_pure ⟨normal, ?_⟩
    rw [OrderTerm.allNodes_append, Select.allNormal_append]
    exact ⟨ordered, Select.allNormal_nil⟩
  · exact yields_pure ⟨normal, ordered⟩

end Compile

end Orders

/-! ### Everything to be followed -/

namespace Fetch

open Compile (Yields yields_pure)

variable {schema : Schema}

mutual

/-- **What is followed is in normal form**: the joined sources and the criteria of the order. -/
theorem normal_compile {table : Table} {p : Progress} : (fetch : Fetch) → p.draft.IsNormal →
    Yields (fetch.compile schema table) p (fun terms q =>
      q.draft.IsNormal ∧ AllNormal (OrderTerm.allNodes terms))
  | mk _ relationships, normal => by
    unfold Fetch.compile
    exact normal_compileAll relationships normal

theorem normal_compileAll {table : Table} {p : Progress} :
    (relationships : List (String × Fetch)) → p.draft.IsNormal →
      Yields (Fetch.compileAll schema table relationships) p (fun terms q =>
        q.draft.IsNormal ∧ AllNormal (OrderTerm.allNodes terms))
  | [], normal => yields_pure ⟨normal, Select.allNormal_nil⟩
  | (name, fetch) :: rest, normal => by
    unfold Fetch.compileAll
    refine (Compile.normal_joinLayer normal table name fetch.layer).bind ?_
    rintro ⟨target, own⟩ q ⟨normal, first⟩
    refine (normal_compile fetch normal).bind ?_
    rintro below r ⟨normal, second⟩
    refine (normal_compileAll rest normal).bind ?_
    rintro after last ⟨normal, third⟩
    refine yields_pure ⟨normal, ?_⟩
    rw [OrderTerm.allNodes_append, OrderTerm.allNodes_append, Select.allNormal_append,
      Select.allNormal_append]
    exact ⟨⟨first, second⟩, third⟩

end

end Fetch

/-! ### Pages -/

namespace Compile

variable {schema : Schema} {p : Progress}

theorem allNormal_orderOf {terms : List OrderTerm} (normal : AllNormal (OrderTerm.allNodes terms)) :
    AllNormal (OrderTerm.optionNodes (orderOf terms)) := by
  rwa [optionNodes_orderOf]

/-- **The query around a page is in normal form if the page is.** -/
theorem normal_pushDown {page : PrimaryPage} (normal : page.draft.IsNormal)
    (filtered : ∀ condition ∈ page.filter?, condition.IsNormalInside)
    (ordered : AllNormal (OrderTerm.allNodes page.terms)) (fetch : Fetch)
    (sort : List SortElement) :
    Yields (pushDown schema page fetch sort) p (fun s _ => AllNormal s.nodes) := by
  refine yields_tree_bind fun inside selected => ?_
  rw [PrimaryPage.select_eq] at selected
  have full : page.fullDraft.IsNormal := ⟨normal.joins, plain_fullDraft normal.plain⟩
  have columns : ∀ selector ∈ page.table.columns.map (fun c => Selector.column c none),
      selector.IsPlain := QueryShape.plain_selectors .columns page.table
  have queried : AllNormal inside.nodes := by
    refine full.assemble ?_ columns filtered (allNormal_orderOf ordered) selected
    exact Select.allNormal_nil
  refine yields_newAlias_bind (yields_tree_bind fun derived built => ?_)
  refine yields_changeDraft_bind ?_
  obtain ⟨m, outside, -⟩ := page.outerDraft_eq ⟨p.names.tables + 1⟩
  rw [outside]
  refine (normal_outerTerms (p := ⟨_, { Draft.empty with remap := m }⟩)
    (Draft.isNormal_empty.redraft rfl rfl) page.table page.terms sort).bind ?_
  rintro outer middle ⟨normal, first⟩
  refine (yields_selectors page.table derived fetch.layer.selection?).bind ?_
  rintro columns middle ⟨rfl, plain⟩
  refine (fetch.normal_compile normal).bind ?_
  rintro below last ⟨normal, second⟩
  refine yields_draft_bind (yields_tree fun s finished => ?_)
  refine normal.assemble (Source.allNormal_ofSelect queried built) plain ?_ (allNormal_orderOf ?_)
    finished
  · exact nofun
  · rw [OrderTerm.allNodes_append, Select.allNormal_append]
    exact ⟨first, second⟩

theorem normal_pageQuery (normal : p.draft.IsNormal) (settings : QuerySettings) (table : Table)
    (fetch : Fetch) (sort : List SortElement) (page : Pagination) :
    Yields (pageQuery schema settings table fetch sort page) p (fun s _ => AllNormal s.nodes) := by
  refine (Filter.normal_compileOption fetch.layer.filter? normal).bind ?_
  rintro filter? q ⟨normal, filtered⟩
  refine (normal_orderTerms normal table sort).bind ?_
  rintro terms r ⟨normal, ordered⟩
  refine (Yields.of_ensures (ensures_pagination settings page)).bind ?_
  rintro limit _ ⟨parameters, rfl⟩
  refine yields_lookup_bind fun multiplies _ => ?_
  split
  · exact yields_draft_bind (normal_pushDown normal filtered ordered fetch sort)
  · refine (yields_selectors table (.table table) fetch.layer.selection?).bind ?_
    rintro columns _ ⟨rfl, plain⟩
    refine (fetch.normal_compile (p := ⟨⟨r.names.tables, parameters⟩, r.draft⟩) normal).bind ?_
    rintro below last ⟨normal, followed⟩
    refine yields_draft_bind (yields_tree fun s built => ?_)
    refine normal.assemble ?_ plain filtered (allNormal_orderOf ?_) built
    · exact Select.allNormal_nil
    · rw [OrderTerm.allNodes_append, Select.allNormal_append]
      exact ⟨ordered, followed⟩

/-- **The query of a request is in normal form.** -/
theorem normal_dataQuery (schema : Schema) (settings : QuerySettings) (request : Request) :
    Yields (dataQuery schema settings request) Progress.start (fun s _ => AllNormal s.nodes) := by
  refine yields_newTable_bind fun table _ => ?_
  exact normal_pageQuery (p := ⟨_, Draft.empty⟩) Draft.isNormal_empty settings table _ _ _

/-- **The query that counts resources is in normal form.** -/
theorem normal_countQuery (schema : Schema) (resourceType : String) (filter? : Option Filter) :
    Yields (countQuery schema resourceType filter?) Progress.start
      (fun s _ => AllNormal s.nodes) := by
  refine yields_newTable_bind fun table _ => ?_
  refine (normal_queryTable (p := ⟨_, Draft.empty⟩) Draft.isNormal_empty .count
    fun p => Filter.normal_compileOption filter?).mono ?_
  exact fun s q queried => queried.2

end Compile

/-- **The queries of a plan are in normal form**, with all queries inside them. -/
theorem Request.compile_normal {schema : Schema} {settings : QuerySettings} {request : Request}
    {plan : QueryPlan} (h : request.compile schema settings = .ok plan) :
    AllNormal plan.data.nodes ∧ ∀ count ∈ plan.count?, AllNormal count.nodes := by
  rcases compile_cases schema settings request with ⟨plan', h', hdata, hcount⟩ | ⟨e, h', -⟩
  · rw [h] at h'
    cases h'
    obtain ⟨_, -, data⟩ := (Compile.normal_dataQuery schema settings request).run hdata
    refine ⟨data, fun count mem => ?_⟩
    obtain ⟨_, -, counted⟩ := (Compile.normal_countQuery schema _ _).run (hcount count mem)
    exact counted
  · rw [h] at h'
    cases h'

end ResourceQuery
