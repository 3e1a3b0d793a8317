import ResourceQuery.Proofs.Compile.Ensures
import ResourceQuery.Proofs.Compile.Growth

/-!
# What filters become

A filter becomes a condition, and on the way the draft grows by the paths that the filter follows.
The relation between the two is given here by itself, without the order in which lookups are made
and without their failures; whatever is claimed of conditions is then proved from this relation.

## Main Definitions

- `Compile.FieldAt`, `Compile.ManyAt`: the field and the to-many relationship at the end of a path.
- `Compile.relatedQuery`: the query over the rows that are related to the current one.
- `Compile.CountAt`: the number of rows at the end of a path.
- `Filter.Becomes`: the condition that a filter becomes.

## Main Statements

- `Filter.Becomes.quiet`, `Filter.Becomes.fits`: a filter only joins tables, and keeps the
  invariant.
- `Filter.ensures_compile`: compiling a filter gives a condition that it becomes, or fails for a
  reason that lies in the request.
-/

namespace ResourceQuery

open Sql (Table Source Select Column Condition Operand Parameter)

namespace Compile

/-! ### Ends of paths -/

/-- The column of the field at the end of a path. -/
def FieldAt (schema : Schema) (p : Progress) (table : Table) (path : Path) (c : Column)
    (info : FieldColumn) (q : Progress) : Prop :=
  ∃ name owner, path.getLast? = some name ∧ Walks schema p table path.dropLast owner q
    ∧ schema.field owner.resourceType name = .ok info ∧ owner.getColumn info.column = .ok c

/-- The to-many relationship at the end of a path, and the table it leads away from. -/
def ManyAt (schema : Schema) (p : Progress) (table : Table) (path : Path) (owner : Table)
    (name : String) (q : Progress) : Prop :=
  path.getLast? = some name ∧ Walks schema p table path.dropLast owner q
    ∧ ∃ relationship, schema.relationship owner.resourceType name = .ok relationship
      ∧ relationship.isToMany = true

/-- A query over a table that takes part in no order and no limit. -/
def plainQuery (table : Table) (shape : QueryShape) (d : Draft) (condition? : Option Condition) :
    Select :=
  ⟨d.entries (.table table) (shape.selectors table), condition?, none, none, none⟩

/-- The query over the rows of a table that are related to the current row of another one. -/
def relatedQuery (target : Table) (shape : QueryShape) (d : Draft)
    (condition? : Option Condition) (outer inner : Column) : Select :=
  (plainQuery target shape d condition?).restrict (Condition.columnsEqual outer inner)

/-- The query that counts the rows at the end of a path. -/
def CountAt (schema : Schema) (p : Progress) (table : Table) (path : Path) (select : Select)
    (q : Progress) : Prop :=
  ∃ owner name r target key outer inner, ManyAt schema p table path owner name r
    ∧ Connects schema owner name target key outer inner
    ∧ target.tableAlias = ⟨r.names.tables + 1⟩
    ∧ select = relatedQuery target .count Draft.empty none outer inner
    ∧ q = ⟨⟨r.names.tables + 1, r.names.parameters⟩, r.draft⟩

/-! ### Comparisons -/

/-- What a side of a comparison is before constants have been typed. -/
inductive Pending (schema : Schema) (table : Table) :
    Progress → Expression → PendingOperand → Progress → Prop
  | field {p q : Progress} {path : Path} {c : Column} {info : FieldColumn}
      (at_ : FieldAt schema p table path c info q) :
      Pending schema table p (.field path) (.typed (.column c) (.field info)) q
  | count {p q : Progress} {path : Path} {select : Select}
      (at_ : CountAt schema p table path select q) :
      Pending schema table p (.count path) (.typed (.count select) .count) q
  | constant {p : Progress} {value : Json} (given : value ≠ .null) :
      Pending schema table p (.constant value) (.constant value) p
  | nullConstant {p : Progress} : Pending schema table p (.constant .null) .null p
  | null {p : Progress} : Pending schema table p .null .null p

/-- What a side of a comparison is when the constants have a type. -/
inductive Finishes (schema : Schema) (type : OperandType) : PendingOperand → Operand → Prop
  | typed {operand : Operand} {own : OperandType} :
      Finishes schema type (.typed operand own) operand
  | null : Finishes schema type .null .null
  | constant {value : Json} {parameter : Parameter}
      (typed : constantValue schema type value = .ok parameter.value) :
      Finishes schema type (.constant value) (.parameter parameter)

/-- The comparison of two expressions. -/
def Compares (schema : Schema) (table : Table) (kind : ComparisonKind) (left right : Expression)
    (p : Progress) (condition : Condition) (q : Progress) : Prop :=
  ∃ l r type lo ro middle last parameters,
    Pending schema table p left l middle ∧ Pending schema table middle right r last
      ∧ (l.type? <|> r.type?) = some type
      ∧ Finishes schema type l lo ∧ Finishes schema type r ro
      ∧ ((lo.isNull || ro.isNull) = true → kind = .equals)
      ∧ condition = .comparison lo (comparisonOp kind) ro
      ∧ q = ⟨⟨last.names.tables, parameters⟩, last.draft⟩

end Compile

/-! ### Filters -/

namespace Filter

open Compile (FieldAt ManyAt Connects Compares relatedQuery anyTerms constantValue)

mutual

/-- **The condition that a filter becomes**, and the progress that is made by it. -/
def Becomes (schema : Schema) (table : Table) :
    Filter → Progress → Condition → Progress → Prop
  | .comparison kind left right, p, condition, q =>
    Compares schema table kind left right p condition q
  | .and terms, p, condition, q =>
    ∃ conditions, AllBecome schema table terms p conditions q
      ∧ condition = Condition.all conditions
  | .or terms, p, condition, q =>
    ∃ conditions, AllBecome schema table terms p conditions q
      ∧ condition = Condition.any conditions
  | .not term, p, condition, q =>
    ∃ inner, Becomes schema table term p inner q ∧ condition = .not inner
  | .textMatch field text kind, p, condition, q =>
    ∃ c info, FieldAt schema p table field c info q ∧ condition = .like c text kind
  | .any field values, p, condition, q =>
    ∃ c info given last parameters, FieldAt schema p table field c info last
      ∧ List.Forall₂ (fun value parameter =>
          constantValue schema (.field info) value = .ok parameter.value)
        (values.filter (fun v => v ≠ .null)) given
      ∧ condition = Condition.any (anyTerms c given (values.any (fun v => v = .null)))
      ∧ q = ⟨⟨last.names.tables, parameters⟩, last.draft⟩
  | .has relationship filter?, p, condition, q =>
    ∃ owner name r target key outer inner condition? last,
      ManyAt schema p table relationship owner name r
      ∧ Connects schema owner name target key outer inner
      ∧ target.tableAlias = ⟨r.names.tables + 1⟩
      ∧ OptionBecomes schema target filter?
        ⟨⟨r.names.tables + 1, r.names.parameters⟩, Draft.empty⟩ condition? last
      ∧ condition = .nonempty (relatedQuery target .one last.draft condition? outer inner)
      ∧ q = ⟨last.names, r.draft⟩
  | .isType _ _, _, _, _ => False

/-- The conditions that several filters become, one after the other. -/
def AllBecome (schema : Schema) (table : Table) :
    List Filter → Progress → List Condition → Progress → Prop
  | [], p, conditions, q => conditions = [] ∧ q = p
  | term :: rest, p, conditions, q =>
    ∃ condition others middle, Becomes schema table term p condition middle
      ∧ AllBecome schema table rest middle others q ∧ conditions = condition :: others

/-- The condition that a filter becomes, if there is one. -/
def OptionBecomes (schema : Schema) (table : Table) :
    Option Filter → Progress → Option Condition → Progress → Prop
  | none, p, condition?, q => condition? = none ∧ q = p
  | some filter, p, condition?, q =>
    ∃ condition, Becomes schema table filter p condition q ∧ condition? = some condition

end

end Filter

/-! ### The invariant -/

namespace Compile

variable {schema : Schema} {start : Source} {p q : Progress} {table : Table}

theorem CountAt.quiet {path : Path} {select : Select}
    (at_ : CountAt schema p table path select q) : p.Quiet q := by
  obtain ⟨owner, name, r, target, key, outer, inner, many, -, -, -, rfl⟩ := at_
  exact many.2.1.quiet.trans (.ofNames (Nat.le_succ _))

theorem CountAt.fits {path : Path} {select : Select}
    (at_ : CountAt schema p table path select q) (fits : p.Fits schema start)
    (known : p.draft.Knows schema start table) : q.Fits schema start := by
  obtain ⟨owner, name, r, target, key, outer, inner, many, -, -, -, rfl⟩ := at_
  exact (many.2.1.fits fits known).1.ofNames (Nat.le_succ _)

/-- The rows at the end of a path are stored under the path's destination. -/
theorem ManyAt.resourceType_eq {path : Path} {owner target : Table} {name : String}
    {key : ForeignKey} {outer inner : Column} (many : ManyAt schema p table path owner name q)
    (connects : Connects schema owner name target key outer inner) (fits : p.Fits schema start)
    (known : p.draft.Knows schema start table) :
    target.resourceType = schema.destination table.resourceType path := by
  obtain ⟨ends, walks, -⟩ := many
  rw [← List.dropLast_append_getLast? name ends, Schema.destination, List.foldl_append,
    connects.resourceType_eq, walks.resourceType_eq fits known]
  rfl

/-- The column of a field is a column of a known table. -/
theorem FieldAt.fits {path : Path} {c : Column} {info : FieldColumn}
    (at_ : FieldAt schema p table path c info q) (fits : p.Fits schema start)
    (known : p.draft.Knows schema start table) :
    q.Fits schema start
      ∧ ∃ owner, q.draft.Knows schema start owner ∧ c ∈ owner.columns := by
  obtain ⟨name, owner, -, walks, hfield, hcolumn⟩ := at_
  obtain ⟨fits, known⟩ := walks.fits fits known
  obtain ⟨ownerInfo, stores⟩ := known.stored
  obtain ⟨c', mem, hc', -⟩ := getColumn_of_field stores hfield
  rw [hcolumn] at hc'
  cases hc'
  exact ⟨fits, owner, known, mem⟩

theorem FieldAt.quiet {path : Path} {c : Column} {info : FieldColumn}
    (at_ : FieldAt schema p table path c info q) : p.Quiet q := by
  obtain ⟨name, owner, -, walks, -⟩ := at_
  exact walks.quiet

theorem Pending.quiet {e : Expression} {pending : PendingOperand}
    (side : Pending schema table p e pending q) : p.Quiet q := by
  cases side with
  | field at_ => exact at_.quiet
  | count at_ => exact at_.quiet
  | constant => exact .refl p
  | nullConstant => exact .refl p
  | null => exact .refl p

theorem Pending.fits {e : Expression} {pending : PendingOperand}
    (side : Pending schema table p e pending q) (fits : p.Fits schema start)
    (known : p.draft.Knows schema start table) : q.Fits schema start := by
  cases side with
  | field at_ => exact (at_.fits fits known).1
  | count at_ => exact at_.fits fits known
  | constant => exact fits
  | nullConstant => exact fits
  | null => exact fits

theorem Compares.quiet {kind : ComparisonKind} {left right : Expression} {condition : Condition}
    (compares : Compares schema table kind left right p condition q) : p.Quiet q := by
  obtain ⟨l, r, type, lo, ro, middle, last, parameters, hl, hr, -, -, -, -, -, rfl⟩ := compares
  exact (hl.quiet.trans hr.quiet).trans (.ofNames (Nat.le_refl _))

theorem Compares.fits {kind : ComparisonKind} {left right : Expression} {condition : Condition}
    (compares : Compares schema table kind left right p condition q)
    (fits : p.Fits schema start) (known : p.draft.Knows schema start table) :
    q.Fits schema start := by
  obtain ⟨l, r, type, lo, ro, middle, last, parameters, hl, hr, -, -, -, -, -, rfl⟩ := compares
  have hmiddle := hl.fits fits known
  exact (hr.fits hmiddle (fits.knows_extends hl.quiet.toExtends known)).ofNames (Nat.le_refl _)

end Compile

namespace Filter

variable {schema : Schema} {start : Source}

mutual

/-- **A filter only joins tables.** -/
theorem Becomes.quiet {table : Table} {p q : Progress} {condition : Condition} :
    (filter : Filter) → filter.Becomes schema table p condition q → p.Quiet q
  | .comparison _ _ _, h => by
    simp only [Becomes] at h
    exact h.quiet
  | .and terms, h => by
    simp only [Becomes] at h
    obtain ⟨conditions, h, -⟩ := h
    exact AllBecome.quiet terms h
  | .or terms, h => by
    simp only [Becomes] at h
    obtain ⟨conditions, h, -⟩ := h
    exact AllBecome.quiet terms h
  | .not term, h => by
    simp only [Becomes] at h
    obtain ⟨inner, h, -⟩ := h
    exact Becomes.quiet term h
  | .textMatch _ _ _, h => by
    simp only [Becomes] at h
    obtain ⟨c, info, at_, -⟩ := h
    exact at_.quiet
  | .any _ _, h => by
    simp only [Becomes] at h
    obtain ⟨c, info, given, last, parameters, at_, -, -, rfl⟩ := h
    exact at_.quiet.trans (.ofNames (Nat.le_refl _))
  | .has _ filter?, h => by
    simp only [Becomes] at h
    obtain ⟨owner, name, r, target, key, outer, inner, condition?, last, many, -, -, below, -,
      rfl⟩ := h
    have names := (OptionBecomes.quiet filter? below).names
    exact many.2.1.quiet.trans (.ofNames (Nat.le_trans (Nat.le_succ _) names))
  | .isType _ _, h => by
    simp only [Becomes] at h

theorem AllBecome.quiet {table : Table} {p q : Progress} {conditions : List Condition} :
    (terms : List Filter) → AllBecome schema table terms p conditions q → p.Quiet q
  | [], h => by
    simp only [AllBecome] at h
    rw [h.2]
    exact .refl p
  | term :: rest, h => by
    simp only [AllBecome] at h
    obtain ⟨condition, others, middle, first, after, -⟩ := h
    exact (Becomes.quiet term first).trans (AllBecome.quiet rest after)

theorem OptionBecomes.quiet {table : Table} {p q : Progress} {condition? : Option Condition} :
    (filter? : Option Filter) → OptionBecomes schema table filter? p condition? q → p.Quiet q
  | none, h => by
    simp only [OptionBecomes] at h
    rw [h.2]
    exact .refl p
  | some filter, h => by
    simp only [OptionBecomes] at h
    obtain ⟨condition, h, -⟩ := h
    exact Becomes.quiet filter h

end

mutual

/-- **A filter on a known table keeps the invariant.** -/
theorem Becomes.fits {table : Table} {p q : Progress} {condition : Condition} :
    (filter : Filter) → filter.Becomes schema table p condition q → p.Fits schema start →
      p.draft.Knows schema start table → q.Fits schema start
  | .comparison _ _ _, h, fits, known => by
    simp only [Becomes] at h
    exact h.fits fits known
  | .and terms, h, fits, known => by
    simp only [Becomes] at h
    obtain ⟨conditions, h, -⟩ := h
    exact AllBecome.fits terms h fits known
  | .or terms, h, fits, known => by
    simp only [Becomes] at h
    obtain ⟨conditions, h, -⟩ := h
    exact AllBecome.fits terms h fits known
  | .not term, h, fits, known => by
    simp only [Becomes] at h
    obtain ⟨inner, h, -⟩ := h
    exact Becomes.fits term h fits known
  | .textMatch _ _ _, h, fits, known => by
    simp only [Becomes] at h
    obtain ⟨c, info, at_, -⟩ := h
    exact (at_.fits fits known).1
  | .any _ _, h, fits, known => by
    simp only [Becomes] at h
    obtain ⟨c, info, given, last, parameters, at_, -, -, rfl⟩ := h
    exact (at_.fits fits known).1.ofNames (Nat.le_refl _)
  | .has _ filter?, h, fits, known => by
    -- The query inside has a draft of its own, so only names are taken from this one.
    simp only [Becomes] at h
    obtain ⟨owner, name, r, target, key, outer, inner, condition?, last, many, -, -, below, -,
      rfl⟩ := h
    have names := (OptionBecomes.quiet filter? below).names
    exact (many.2.1.fits fits known).1.ofNames (Nat.le_trans (Nat.le_succ _) names)
  | .isType _ _, h, _, _ => by
    simp only [Becomes] at h

theorem AllBecome.fits {table : Table} {p q : Progress} {conditions : List Condition} :
    (terms : List Filter) → AllBecome schema table terms p conditions q → p.Fits schema start →
      p.draft.Knows schema start table → q.Fits schema start
  | [], h, fits, _ => by
    simp only [AllBecome] at h
    rw [h.2]
    exact fits
  | term :: rest, h, fits, known => by
    simp only [AllBecome] at h
    obtain ⟨condition, others, middle, first, after, -⟩ := h
    have grown := (Becomes.quiet term first).toExtends
    exact AllBecome.fits rest after (Becomes.fits term first fits known)
      (fits.knows_extends grown known)

end

theorem OptionBecomes.fits {table : Table} {p q : Progress} {condition? : Option Condition}
    {filter? : Option Filter} (h : OptionBecomes schema table filter? p condition? q)
    (fits : p.Fits schema start) (known : p.draft.Knows schema start table) :
    q.Fits schema start := by
  cases filter? with
  | none =>
    simp only [OptionBecomes] at h
    rw [h.2]
    exact fits
  | some filter =>
    simp only [OptionBecomes] at h
    obtain ⟨condition, h, -⟩ := h
    exact Becomes.fits filter h fits known

end Filter

/-! ### Compiling -/

theorem Sql.JoinOn.make_of_table {kind : Sql.JoinKind} {source target : Table}
    {outer inner : Column} (houter : outer ∈ source.columns) (hinner : inner ∈ target.columns)
    (ne : source.tableAlias ≠ target.tableAlias) :
    Sql.JoinOn.make kind (.table target) outer inner = .ok ⟨kind, outer, inner⟩ := by
  have howns : (Source.table target).owns inner = true := by
    simp [Source.owns, Table.alias?_of_mem_columns hinner, Source.declares]
  have hfree : (Source.table target).owns outer = false := by
    simp [Source.owns, Table.alias?_of_mem_columns houter, Source.declares, ne.symm]
  simp [JoinOn.make, howns, hfree]

/-- A query from which no table was moved is finished as it stands. -/
theorem Draft.assemble_of_unmoved {d : Draft} (unmoved : d.remap = Sql.Remap.empty)
    (start : Source) (selectors : List Sql.Selector) (filter? : Option Condition)
    (order? : Option (List Sql.OrderTerm)) (limit? : Option Sql.Limit) :
    d.assemble start selectors filter? order? limit?
      = .ok ⟨d.entries start selectors, filter?, order?, limit?, none⟩ := by
  simp [Draft.assemble, Select.repair, unmoved, Sql.Remap.empty]

namespace Compile

variable {schema : Schema} {start : Source} {p : Progress} {source : Table}

theorem ensures_joinRelationship (fits : p.Fits schema start)
    (known : p.draft.Knows schema start source) (name : String) :
    Ensures (joinRelationship schema source name) p
      (fun target q => Reaches schema p source name target q) := by
  unfold joinRelationship
  refine ensures_draft_bind ?_
  cases hfound : p.draft.joinedFor? source.tableAlias name with
  | some target => exact ensures_pure (.again hfound)
  | none =>
    refine ensures_lookup_bind fun relationship hrel => ?_
    refine ensures_lookup_bind fun key hkey => ?_
    refine ensures_newTable_bind fun target htarget => ?_
    obtain ⟨leads, named, targetInfo, stores⟩ := Schema.stores_of_table htarget
    obtain ⟨sourceInfo, stored⟩ := known.stored
    obtain ⟨outer, houter, inner, hinner, hcolumns, -⟩ :=
      keyColumns_ok hkey hrel stored stores leads
    have ne : source.tableAlias ≠ target.tableAlias := by
      intro same
      have le := fits.alias_le_of_knows known
      rw [same, named] at le
      exact absurd le (Nat.not_succ_le_self _)
    refine ensures_tree_bind hcolumns ?_
    refine ensures_tree_bind (Sql.JoinOn.make_of_table houter hinner ne) ?_
    refine ensures_changeDraft_bind ?_
    refine ensures_pure (.anew ⟨⟨relationship, hrel, ?_⟩, hkey, hcolumns⟩ named)
    rw [named]
    exact htarget

theorem ensures_followToOne (fits : p.Fits schema start)
    (known : p.draft.Knows schema start source) (path : Path) :
    Ensures (followToOne schema source path) p
      (fun target q => Walks schema p source path target q) := by
  induction path generalizing p source with
  | nil => exact ensures_pure .arrived
  | cons name rest ih =>
    unfold followToOne
    refine ensures_lookup_bind fun relationship hrel => ?_
    by_cases toOne : relationship.isToOne = true
    · rw [if_pos toOne]
      refine (ensures_joinRelationship fits known name).bind fun middle q reaches => ?_
      obtain ⟨fits, known⟩ := reaches.fits fits known
      exact (ih fits known).mono fun target r walks => .step hrel toOne reaches walks
    · rw [if_neg toOne]
      exact ensures_fail rfl

theorem ensures_followToMany (fits : p.Fits schema start)
    (known : p.draft.Knows schema start source) (path : Path) (place : PathUse) :
    Ensures (followToMany schema source path place) p
      (fun result q => ManyAt schema p source path result.1 result.2 q) := by
  unfold followToMany
  cases hlast : path.getLast? with
  | none => exact ensures_fail rfl
  | some name =>
    refine (ensures_followToOne fits known path.dropLast).bind fun owner q walks => ?_
    refine ensures_lookup_bind fun relationship hrel => ?_
    by_cases toMany : relationship.isToMany = true
    · rw [if_pos toMany]
      exact ensures_pure ⟨hlast, walks, relationship, hrel, toMany⟩
    · rw [if_neg toMany]
      exact ensures_fail rfl

/-- A lookup of a field fails only because of the request. -/
theorem not_internal_of_field {resourceType name : String} {e : CompileError}
    (h : schema.field resourceType name = .error e) : e.isInternal = false := by
  unfold Schema.field at h
  cases hinfo : schema.resourceType resourceType with
  | error f =>
    rw [hinfo] at h
    cases h
    rfl
  | ok info =>
    simp only [hinfo, CompileError.ofLookup, bind, Except.bind] at h
    unfold Schema.fieldSource at h
    split at h
    · rename_i f hf
      cases h
      grind [CompileError.isInternal]
    · split at h
      · cases h
      · cases h
        rfl

theorem ensures_fieldColumn (fits : p.Fits schema start)
    (known : p.draft.Knows schema start source) (path : Path) :
    Ensures (fieldColumn schema source path) p
      (fun result q => FieldAt schema p source path result.1 result.2 q) := by
  unfold fieldColumn
  cases hlast : path.getLast? with
  | none => exact ensures_fail rfl
  | some name =>
    refine (ensures_followToOne fits known path.dropLast).bind fun owner q walks => ?_
    refine ensures_lift_bind (fun e h => not_internal_of_field h) fun info hinfo => ?_
    obtain ⟨-, known⟩ := walks.fits fits known
    obtain ⟨ownerInfo, stores⟩ := known.stored
    obtain ⟨c, -, hc, -⟩ := getColumn_of_field stores hinfo
    refine ensures_tree_bind hc ?_
    exact ensures_pure ⟨name, owner, hlast, walks, hinfo, hc⟩

/-- A query with a draft of its own, provided that its condition only joins tables. -/
theorem ensures_queryTable {table : Table} {shape : QueryShape}
    {condition : Compile (Option Condition)} {Q : Option Condition → Progress → Prop}
    (contract : Ensures condition ⟨p.names, Draft.empty⟩ Q)
    (quiet : ∀ condition? last, Q condition? last →
      Progress.Quiet ⟨p.names, Draft.empty⟩ last) :
    Ensures (queryTable table shape condition) p (fun select q => ∃ condition? last,
      Q condition? last ∧ select = plainQuery table shape last.draft condition?
        ∧ q = ⟨last.names, p.draft⟩) := by
  unfold queryTable
  refine ensures_inner_bind contract fun condition? last holds => ?_
  have unmoved := (quiet condition? last holds).remap
  exact ensures_tree (Draft.assemble_of_unmoved unmoved _ _ _ _ _) ⟨condition?, last, holds, rfl, rfl⟩

/-- The query over related rows, provided that its condition only joins tables. -/
theorem ensures_correlated (known : p.draft.Knows schema start source) (name : String)
    {shape : QueryShape} {condition : Table → Compile (Option Condition)}
    {Q : Table → Option Condition → Progress → Prop}
    (contract : ∀ target info, schema.Stores info target →
      target.tableAlias = ⟨p.names.tables + 1⟩ →
      Ensures (condition target)
        ⟨⟨p.names.tables + 1, p.names.parameters⟩, Draft.empty⟩ (Q target))
    (quiet : ∀ target condition? last, Q target condition? last →
      Progress.Quiet ⟨⟨p.names.tables + 1, p.names.parameters⟩, Draft.empty⟩ last) :
    Ensures (correlated schema source name shape condition) p (fun select q =>
      ∃ target key outer inner condition? last,
        Connects schema source name target key outer inner
        ∧ target.tableAlias = ⟨p.names.tables + 1⟩ ∧ Q target condition? last
        ∧ select = relatedQuery target shape last.draft condition? outer inner
        ∧ q = ⟨last.names, p.draft⟩) := by
  unfold correlated
  refine ensures_lookup_bind fun relationship hrel => ?_
  refine ensures_lookup_bind fun key hkey => ?_
  refine ensures_newTable_bind fun target htarget => ?_
  obtain ⟨leads, named, targetInfo, stores⟩ := Schema.stores_of_table htarget
  obtain ⟨sourceInfo, stored⟩ := known.stored
  obtain ⟨outer, -, inner, -, hcolumns, -⟩ := keyColumns_ok hkey hrel stored stores leads
  refine (ensures_queryTable (contract target targetInfo stores named) (quiet target)).bind ?_
  rintro select _ ⟨condition?, last, holds, rfl, rfl⟩
  refine ensures_tree_bind hcolumns ?_
  refine ensures_pure ⟨target, key, outer, inner, condition?, last,
    ⟨⟨relationship, hrel, ?_⟩, hkey, hcolumns⟩, named, holds, rfl, rfl⟩
  rw [named]
  exact htarget

theorem ensures_relatedCount (fits : p.Fits schema start)
    (known : p.draft.Knows schema start source) (path : Path) (place : PathUse) :
    Ensures (relatedCount schema source path place) p
      (fun select q => CountAt schema p source path select q) := by
  unfold relatedCount
  refine (ensures_followToMany fits known path place).bind ?_
  rintro ⟨owner, name⟩ r many
  obtain ⟨-, known⟩ := many.2.1.fits fits known
  refine (ensures_correlated known name (Q := fun _ condition? last => condition? = none
    ∧ last = ⟨⟨r.names.tables + 1, r.names.parameters⟩, Draft.empty⟩)
    (fun _ _ _ _ => ensures_pure ⟨rfl, rfl⟩) ?_).mono ?_
  · rintro _ _ _ ⟨-, rfl⟩
    exact .refl _
  · rintro select _ ⟨target, key, outer, inner, _, _, connects, named, ⟨rfl, rfl⟩, rfl, rfl⟩
    exact ⟨owner, name, r, target, key, outer, inner, many, connects, named, rfl, rfl⟩

/-! ### Compiling comparisons and lists of values -/

/-- A constant is rejected only because of the request. -/
theorem not_internal_of_constantValue {type : OperandType} {value : Json} {e : CompileError}
    (h : constantValue schema type value = .error e) : e.isInternal = false := by
  have general : ∀ scalar enumType?,
      Constant.toValue schema.enumTypes scalar enumType? value = .error e →
        e.isInternal = false := by
    intro scalar enumType? h
    unfold Constant.toValue at h
    split at h
    · cases h
    · split at h
      · unfold Constant.enumValue at h
        grind [CompileError.isInternal]
      · grind [CompileError.isInternal]
  cases type with
  | field info => exact general info.type info.enumType? h
  | count => exact general .bigint none h

theorem ensures_pendingOperand (fits : p.Fits schema start)
    (known : p.draft.Knows schema start source) (e : Expression) :
    Ensures (pendingOperand schema source e) p
      (fun pending q => Pending schema source p e pending q) := by
  cases e with
  | field path =>
    refine (ensures_fieldColumn fits known path).bind ?_
    rintro ⟨c, info⟩ q at_
    exact ensures_pure (.field at_)
  | count path =>
    refine (ensures_relatedCount fits known path .count).bind fun select q at_ => ?_
    exact ensures_pure (.count at_)
  | constant value =>
    show Ensures (pure (if value = .null then PendingOperand.null else .constant value)) p _
    by_cases given : value = .null
    · subst given
      exact ensures_pure .nullConstant
    · rw [if_neg given]
      exact ensures_pure (.constant given)
  | null => exact ensures_pure .null

/-- Typing a constant takes the name of a parameter and nothing else. -/
theorem ensures_finishOperand (type : OperandType) (pending : PendingOperand) :
    Ensures (finishOperand schema type pending) p (fun operand q =>
      Finishes schema type pending operand
        ∧ ∃ parameters, q = ⟨⟨p.names.tables, parameters⟩, p.draft⟩) := by
  cases pending with
  | typed operand own => exact ensures_pure ⟨.typed, p.names.parameters, rfl⟩
  | null => exact ensures_pure ⟨.null, p.names.parameters, rfl⟩
  | constant value =>
    unfold finishOperand
    refine ensures_lift_bind (fun e h => not_internal_of_constantValue h) fun v hv => ?_
    refine ensures_newParameter_bind ?_
    exact ensures_pure ⟨.constant hv, _, rfl⟩

theorem ensures_comparison (fits : p.Fits schema start)
    (known : p.draft.Knows schema start source) (kind : ComparisonKind)
    (left right : Expression) :
    Ensures (comparison schema source kind left right) p
      (fun condition q => Compares schema source kind left right p condition q) := by
  unfold comparison
  refine (ensures_pendingOperand fits known left).bind fun l middle hl => ?_
  have fits' := hl.fits fits known
  have known' := fits.knows_extends hl.quiet.toExtends known
  refine (ensures_pendingOperand fits' known' right).bind fun r last hr => ?_
  cases htype : l.type? <|> r.type? with
  | none => exact ensures_fail rfl
  | some type =>
    refine (ensures_finishOperand type l).bind ?_
    rintro lo _ ⟨hlo, parameters, rfl⟩
    refine (ensures_finishOperand type r).bind ?_
    rintro ro _ ⟨hro, parameters', rfl⟩
    by_cases ordering : ((lo.isNull || ro.isNull) && decide (kind ≠ .equals)) = true
    · rw [if_pos ordering]
      exact ensures_fail rfl
    · rw [if_neg ordering]
      refine ensures_pure ⟨l, r, type, lo, ro, middle, last, parameters', hl, hr, htype, hlo, hro,
        ?_, rfl, rfl⟩
      intro isNull
      by_contra ne
      exact ordering (by simp [isNull, ne])

theorem ensures_textMatch (fits : p.Fits schema start)
    (known : p.draft.Knows schema start source) (path : Path) (text : String)
    (kind : Sql.MatchKind) :
    Ensures (textMatch schema source path text kind) p (fun condition q =>
      ∃ c info, FieldAt schema p source path c info q ∧ condition = .like c text kind) := by
  unfold textMatch
  refine (ensures_fieldColumn fits known path).bind ?_
  rintro ⟨c, info⟩ q at_
  dsimp only
  by_cases isText : info.type.matchesText = true
  · rw [if_pos isText]
    exact ensures_pure ⟨c, info, at_, rfl⟩
  · rw [if_neg isText]
    exact ensures_fail rfl

theorem ensures_parameters (type : OperandType) (values : List Json) :
    Ensures (parameters schema type values) p (fun given q =>
      List.Forall₂ (fun value parameter =>
          constantValue schema type value = .ok parameter.value) values given
        ∧ ∃ n, q = ⟨⟨p.names.tables, n⟩, p.draft⟩) := by
  induction values generalizing p with
  | nil => exact ensures_pure ⟨.nil, p.names.parameters, rfl⟩
  | cons value rest ih =>
    unfold parameters
    refine ensures_lift_bind (fun e h => not_internal_of_constantValue h) fun v hv => ?_
    refine ensures_newParameter_bind ?_
    refine ih.bind ?_
    rintro given _ ⟨hgiven, n, rfl⟩
    exact ensures_pure ⟨.cons hv hgiven, n, rfl⟩

theorem ensures_anyOf (fits : p.Fits schema start)
    (known : p.draft.Knows schema start source) (path : Path) (values : List Json) :
    Ensures (anyOf schema source path values) p
      (fun condition q => (Filter.any path values).Becomes schema source p condition q) := by
  unfold anyOf
  by_cases isEmpty : values.isEmpty = true
  · rw [if_pos isEmpty]
    exact ensures_fail rfl
  · rw [if_neg isEmpty]
    refine (ensures_fieldColumn fits known path).bind ?_
    rintro ⟨c, info⟩ last at_
    refine (ensures_parameters (.field info) _).bind ?_
    rintro given _ ⟨hgiven, n, rfl⟩
    refine ensures_pure ?_
    simp only [Filter.Becomes]
    exact ⟨c, info, given, last, n, at_, hgiven, rfl, rfl⟩

end Compile

namespace Filter

open Compile

variable {schema : Schema}

mutual

/-- **Compiling a filter** on a known table gives a condition that it becomes, or fails for a
reason that lies in the request. -/
theorem ensures_compile {start : Source} {table : Table} {p : Progress} :
    (filter : Filter) → p.Fits schema start → p.draft.Knows schema start table →
      Ensures (filter.compile schema table) p
        (fun condition q => filter.Becomes schema table p condition q)
  | .comparison kind left right, fits, known => by
    simp only [Becomes]
    exact ensures_comparison fits known kind left right
  | .and terms, fits, known => by
    simp only [Filter.compile, Becomes]
    split
    · exact ensures_fail rfl
    · refine (ensures_compileAll terms fits known).bind fun conditions q h => ?_
      exact ensures_pure ⟨conditions, h, rfl⟩
  | .or terms, fits, known => by
    simp only [Filter.compile, Becomes]
    split
    · exact ensures_fail rfl
    · refine (ensures_compileAll terms fits known).bind fun conditions q h => ?_
      exact ensures_pure ⟨conditions, h, rfl⟩
  | .not term, fits, known => by
    simp only [Filter.compile, Becomes]
    refine (ensures_compile term fits known).bind fun condition q h => ?_
    exact ensures_pure ⟨condition, h, rfl⟩
  | .textMatch path text kind, fits, known => by
    simp only [Becomes]
    exact ensures_textMatch fits known path text kind
  | .any path values, fits, known => ensures_anyOf fits known path values
  | .has relationship filter?, fits, known => by
    simp only [Filter.compile, Becomes]
    refine (ensures_followToMany fits known relationship .has).bind ?_
    rintro ⟨owner, name⟩ r many
    obtain ⟨-, owned⟩ := many.2.1.fits fits known
    -- The query inside starts from a table of its own, for which the invariant holds afresh.
    refine (ensures_correlated owned name (Q := fun target condition? last =>
      OptionBecomes schema target filter?
        ⟨⟨r.names.tables + 1, r.names.parameters⟩, Draft.empty⟩ condition? last) ?_ ?_).bind ?_
    · intro target info stores named
      have le : target.tableAlias.index ≤ r.names.tables + 1 :=
        Sql.TableAlias.index_le named
      exact ensures_compileOption filter? (.ofTable le) (Draft.knows_start stores)
    · exact fun target condition? last h => OptionBecomes.quiet filter? h
    · rintro select _ ⟨target, key, outer, inner, condition?, last, connects, named, h, rfl, rfl⟩
      exact ensures_pure ⟨owner, name, r, target, key, outer, inner, condition?, last, many,
        connects, named, h, rfl, rfl⟩
  | .isType _ _, _, _ => by
    simp only [Filter.compile]
    exact ensures_fail rfl

theorem ensures_compileAll {start : Source} {table : Table} {p : Progress} :
    (terms : List Filter) → p.Fits schema start → p.draft.Knows schema start table →
      Ensures (compileAll schema table terms) p
        (fun conditions q => AllBecome schema table terms p conditions q)
  | [], _, _ => by
    simp only [compileAll, AllBecome]
    exact ensures_pure ⟨rfl, rfl⟩
  | term :: rest, fits, known => by
    simp only [compileAll, AllBecome]
    refine (ensures_compile term fits known).bind fun condition middle first => ?_
    have fits' := Becomes.fits term first fits known
    have known' := fits.knows_extends (Becomes.quiet term first).toExtends known
    refine (ensures_compileAll rest fits' known').bind fun others q h => ?_
    exact ensures_pure ⟨condition, others, middle, first, h, rfl⟩

theorem ensures_compileOption {start : Source} {table : Table} {p : Progress} :
    (filter? : Option Filter) → p.Fits schema start → p.draft.Knows schema start table →
      Ensures (compileOption schema table filter?) p
        (fun condition? q => OptionBecomes schema table filter? p condition? q)
  | none, _, _ => by
    simp only [compileOption, OptionBecomes]
    exact ensures_pure ⟨rfl, rfl⟩
  | some filter, fits, known => by
    simp only [compileOption, OptionBecomes]
    refine (ensures_compile filter fits known).bind fun condition q h => ?_
    exact ensures_pure ⟨condition, h, rfl⟩

end

end Filter

end ResourceQuery
