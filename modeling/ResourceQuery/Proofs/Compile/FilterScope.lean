import ResourceQuery.Proofs.Compile.Assembly

/-!
# Conditions name what is visible

The condition that a filter becomes refers to the sources of the query that it restricts and, inside
existence tests and numbers, to those of the queries around.

## Main Statements

- `Filter.Becomes.inScope`: the condition of a filter names sources of its query.
- `Filter.OptionBecomes.wellScoped_plainQuery`: the query over a table that a filter restricts is
  well scoped.

## Design Notes

A filter always belongs to a query that starts from a table and from which nothing was moved: the
page, the rows of a filtered relationship, or the related rows of an existence test.  What is
visible is any list of sources that includes those of the query, so that no statement has to be
weakened afterwards.
-/

namespace ResourceQuery

open Sql (Table Source Select Column Condition Operand Remap)

namespace Compile

variable {schema : Schema} {start : Source} {p q : Progress} {table : Table}

/-- Where nothing was moved, the column of a field is visible. -/
theorem FieldAt.visible {path : Path} {c : Column} {info : FieldColumn}
    (at_ : FieldAt schema p table path c info q) (fits : p.Fits schema start)
    (known : p.draft.Knows schema start table) (unmoved : p.draft.remap = Remap.empty) :
    c.VisibleIn (q.draft.sources start) := by
  have same := at_.quiet.remap
  obtain ⟨fits, owner, known, mem⟩ := at_.fits fits known
  have visible := (fits.resolves_of_knows known mem).led_visible fits.distinct
    (List.Subset.refl _)
  rw [same, unmoved, Remap.led_empty] at visible
  exact visible

/-- The key column of a relationship is visible where the table it leads away from is known. -/
theorem Connects.outer_visible {name : String} {target : Table} {key : ForeignKey}
    {outer inner : Column} (connects : Connects schema table name target key outer inner)
    (fits : p.Fits schema start) (known : p.draft.Knows schema start table)
    (unmoved : p.draft.remap = Remap.empty) : outer.VisibleIn (p.draft.sources start) := by
  have mem := (connects.mem_columns known.stored).1
  have visible := (fits.resolves_of_knows known mem).led_visible fits.distinct
    (List.Subset.refl _)
  rw [unmoved, Remap.led_empty] at visible
  exact visible

theorem CountAt.wellScoped {path : Path} {select : Select}
    (at_ : CountAt schema p table path select q) (fits : p.Fits schema start)
    (known : p.draft.Knows schema start table) (unmoved : p.draft.remap = Remap.empty)
    {visible : List Source} (sub : q.draft.sources start ⊆ visible) :
    select.WellScoped visible := by
  obtain ⟨owner, name, r, target, key, outer, inner, many, connects, -, rfl, rfl⟩ := at_
  have same := many.2.1.quiet.remap
  obtain ⟨fits, known⟩ := many.2.1.fits fits known
  have houter := connects.outer_visible fits known (same.trans unmoved)
  exact Sql.OrderTerm.wellScoped_relatedCount (houter.mono sub)
    (connects.mem_columns known.stored).2

/-- The typed side of a comparison names visible sources. -/
theorem Pending.inScope {e : Expression} {pending : PendingOperand}
    (side : Pending schema table p e pending q) (fits : p.Fits schema start)
    (known : p.draft.Knows schema start table) (unmoved : p.draft.remap = Remap.empty)
    {visible : List Source} (sub : q.draft.sources start ⊆ visible) {type : OperandType}
    {operand : Operand} (finishes : Finishes schema type pending operand) :
    operand.Scoped visible := by
  cases side with
  | field at_ =>
    cases finishes with
    | typed =>
      simp only [Operand.Scoped]
      exact (at_.visible fits known unmoved).mono sub
  | count at_ =>
    cases finishes with
    | typed =>
      simp only [Operand.Scoped]
      exact at_.wellScoped fits known unmoved sub
  | constant =>
    cases finishes with
    | constant => simp only [Operand.Scoped]
  | nullConstant =>
    cases finishes with
    | null => simp only [Operand.Scoped]
  | null =>
    cases finishes with
    | null => simp only [Operand.Scoped]

theorem Compares.inScope {kind : ComparisonKind} {left right : Expression} {condition : Condition}
    (compares : Compares schema table kind left right p condition q)
    (fits : p.Fits schema start) (known : p.draft.Knows schema start table)
    (unmoved : p.draft.remap = Remap.empty) {visible : List Source}
    (sub : q.draft.sources start ⊆ visible) : condition.Scoped visible := by
  obtain ⟨l, r, type, lo, ro, middle, last, parameters, hl, hr, -, hlo, hro, -, rfl, rfl⟩ :=
    compares
  have known' := fits.knows_extends hl.quiet.toExtends known
  have unmoved' : middle.draft.remap = Remap.empty := hl.quiet.remap.trans unmoved
  have sub' : middle.draft.sources start ⊆ visible := fun s mem =>
    sub (hr.quiet.toExtends.sources start mem)
  simp only [Condition.Scoped]
  exact ⟨hl.inScope fits known unmoved sub' hlo,
    hr.inScope (hl.fits fits known) known' unmoved' sub hro⟩

/-- The terms of a list of values name the column. -/
theorem inScope_anyTerms {c : Column} {visible : List Source} (hc : c.VisibleIn visible)
    (given : List Sql.Parameter) (withNull : Bool) :
    ∀ term ∈ anyTerms c given withNull, term.Scoped visible := by
  intro term mem
  unfold anyTerms at mem
  rcases List.mem_append.mp mem with mem | mem
  · split at mem
    · cases mem
    · rw [List.mem_singleton] at mem
      subst mem
      unfold Condition.equalsAny
      split
      · simp only [Condition.equals, Condition.Scoped, Operand.Scoped]
        exact ⟨hc, trivial⟩
      · simp only [Condition.Scoped]
        exact hc
  · split at mem
    · rw [List.mem_singleton] at mem
      subst mem
      simp only [Condition.isNull, Condition.Scoped, Operand.Scoped]
      exact ⟨hc, trivial⟩
    · cases mem

end Compile

namespace Filter

open Compile

variable {schema : Schema}

mutual

/-- **The condition of a filter names sources of its query**, and inside existence tests those of
the queries around. -/
theorem Becomes.inScope {start : Source} {table : Table} {p q : Progress} {condition : Condition}
    {visible : List Source} :
    (filter : Filter) → filter.Becomes schema table p condition q → p.Fits schema start →
      p.draft.Knows schema start table → p.draft.remap = Remap.empty →
      q.draft.sources start ⊆ visible → condition.Scoped visible
  | .comparison _ _ _, h, fits, known, unmoved, sub => by
    simp only [Becomes] at h
    exact h.inScope fits known unmoved sub
  | .and terms, h, fits, known, unmoved, sub => by
    simp only [Becomes] at h
    obtain ⟨conditions, h, rfl⟩ := h
    exact Condition.scoped_combine (AllBecome.inScope terms h fits known unmoved sub)
  | .or terms, h, fits, known, unmoved, sub => by
    simp only [Becomes] at h
    obtain ⟨conditions, h, rfl⟩ := h
    exact Condition.scoped_combine (AllBecome.inScope terms h fits known unmoved sub)
  | .not term, h, fits, known, unmoved, sub => by
    simp only [Becomes] at h
    obtain ⟨inner, h, rfl⟩ := h
    simp only [Condition.Scoped]
    exact Becomes.inScope term h fits known unmoved sub
  | .textMatch _ _ _, h, fits, known, unmoved, sub => by
    simp only [Becomes] at h
    obtain ⟨c, info, at_, rfl⟩ := h
    simp only [Condition.Scoped]
    exact (at_.visible fits known unmoved).mono sub
  | .any _ _, h, fits, known, unmoved, sub => by
    simp only [Becomes] at h
    obtain ⟨c, info, given, last, parameters, at_, -, rfl, rfl⟩ := h
    exact Condition.scoped_combine
      (inScope_anyTerms ((at_.visible fits known unmoved).mono sub) given _)
  | .has _ filter?, h, fits, known, unmoved, sub => by
    simp only [Becomes] at h
    obtain ⟨owner, name, r, target, key, outer, inner, condition?, last, many, connects, named,
      below, rfl, rfl⟩ := h
    have same : r.draft.remap = Remap.empty := many.2.1.quiet.remap.trans unmoved
    obtain ⟨fits, known⟩ := many.2.1.fits fits known
    obtain ⟨info, stores⟩ := connects.stored
    -- The query inside starts afresh from the table that the relationship leads to.
    have le : target.tableAlias.index ≤ r.names.tables + 1 :=
      Sql.TableAlias.index_le named
    have fits' := below.fits (.ofTable le) (Draft.knows_start stores)
    simp only [Condition.Scoped]
    refine wellScoped_relatedQuery fits' (OptionBecomes.quiet filter? below).remap ?_
      ((connects.outer_visible fits known same).mono sub) (connects.mem_columns known.stored).2
    exact OptionBecomes.inScope filter? below (.ofTable le) (Draft.knows_start stores) rfl
      (List.subset_append_left _ _)
  | .isType _ _, h, _, _, _, _ => by
    simp only [Becomes] at h

theorem AllBecome.inScope {start : Source} {table : Table} {p q : Progress}
    {conditions : List Condition} {visible : List Source} :
    (terms : List Filter) → AllBecome schema table terms p conditions q → p.Fits schema start →
      p.draft.Knows schema start table → p.draft.remap = Remap.empty →
      q.draft.sources start ⊆ visible → ∀ condition ∈ conditions, condition.Scoped visible
  | [], h, _, _, _, _ => by
    simp only [AllBecome] at h
    rw [h.1]
    simp
  | term :: rest, h, fits, known, unmoved, sub => by
    simp only [AllBecome] at h
    obtain ⟨condition, others, middle, first, after, rfl⟩ := h
    have grown := (AllBecome.quiet rest after).toExtends
    have quiet := Becomes.quiet term first
    have head := Becomes.inScope term first fits known unmoved
      (fun s mem => sub (grown.sources start mem))
    have tail := AllBecome.inScope rest after (Becomes.fits term first fits known)
      (fits.knows_extends quiet.toExtends known) (quiet.remap.trans unmoved) sub
    intro other mem
    rcases List.mem_cons.mp mem with rfl | mem
    · exact head
    · exact tail other mem

theorem OptionBecomes.inScope {start : Source} {table : Table} {p q : Progress}
    {condition? : Option Condition} {visible : List Source} :
    (filter? : Option Filter) → OptionBecomes schema table filter? p condition? q →
      p.Fits schema start → p.draft.Knows schema start table → p.draft.remap = Remap.empty →
      q.draft.sources start ⊆ visible → Condition.OptionScoped visible condition?
  | none, h, _, _, _, _ => by
    simp only [OptionBecomes] at h
    rw [h.1]
    simp only [Condition.OptionScoped]
  | some filter, h, fits, known, unmoved, sub => by
    simp only [OptionBecomes] at h
    obtain ⟨condition, h, rfl⟩ := h
    simp only [Condition.OptionScoped]
    exact Becomes.inScope filter h fits known unmoved sub

end

/-- **The query over a table that a filter restricts is well scoped.** -/
theorem OptionBecomes.wellScoped_plainQuery {table : Table} {info : ResourceType}
    {names : Names} {condition? : Option Condition} {last : Progress} {filter? : Option Filter}
    {shape : QueryShape} (h : OptionBecomes schema table filter? ⟨names, Draft.empty⟩ condition? last)
    (stores : schema.Stores info table) (le : table.tableAlias.index ≤ names.tables) :
    (plainQuery table shape last.draft condition?).WellScoped [] := by
  have fits : Progress.Fits schema (.table table) ⟨names, Draft.empty⟩ := .ofTable le
  have known : Draft.empty.Knows schema (.table table) table := Draft.knows_start stores
  refine Compile.wellScoped_plainQuery (h.fits fits known) (OptionBecomes.quiet filter? h).remap ?_
  exact OptionBecomes.inScope filter? h fits known rfl (List.subset_append_left _ _)

end Filter

end ResourceQuery
