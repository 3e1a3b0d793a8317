import ResourceQuery.Proofs.Compile.PageOrder

/-!
# The steps by which tables are reached

A table is joined to follow one relationship from one other table, whatever it is used for
afterwards.  So two paths that lead to the same table are the same.

## Main Definitions

- `Progress.Traces`: the steps by which tables were reached.

## Main Statements

- `Compile.Reaches.traces`: following a relationship is a step, made now or before.
- `Filter.Becomes.keepsTrace`: all steps remain known while a filter is compiled.

## Design Notes

No draft records which relationship a join follows.  The steps are therefore kept beside the draft,
and each successful run extends them.
-/

namespace ResourceQuery

open Sql (Table Select Condition OrderTerm TableAlias)

/-! ### Steps -/

/-- A step from one table to another: the table that it leads from, the relationship that it
follows, and the table that it leads to. -/
abbrev Compile.Step := (TableAlias × String) × TableAlias

open Compile (Step)

/-- **The steps by which tables were reached** from the table of a query: each leads to a table of
its own, and a table that is found again was reached by one. -/
structure Progress.Traces (root : TableAlias) (p : Progress) (steps : List Step) : Prop where
  distinct : (root :: steps.map Prod.snd).Nodup
  given : ∀ a ∈ root :: steps.map Prod.snd, a.index ≤ p.names.tables
  joined : ∀ a name t, p.draft.joinedFor? a name = some t → ((a, name), t.tableAlias) ∈ steps

/-- All steps remain known, and further ones may be added. -/
def Progress.KeepsTrace (p q : Progress) : Prop :=
  ∀ root steps, p.Traces root steps → ∃ more, q.Traces root (steps ++ more)

namespace Progress

variable {p q r : Progress} {root : TableAlias} {steps : List Step}

/-- Two steps that lead to the same table are the same. -/
theorem Traces.unique (traces : p.Traces root steps) {way way' : TableAlias × String}
    {a : TableAlias} (h : (way, a) ∈ steps) (h' : (way', a) ∈ steps) : way = way' := by
  have distinct := (List.nodup_cons.mp traces.distinct).2
  exact congrArg Prod.fst (List.inj_on_of_nodup_map distinct h h' rfl)

/-- No step leads back to the table of the query. -/
theorem Traces.ne_root (traces : p.Traces root steps) {step : Step} (h : step ∈ steps) :
    step.2 ≠ root := by
  intro same
  exact (List.nodup_cons.mp traces.distinct).1 (same ▸ List.mem_map_of_mem h)

/-- A query without joins has taken no steps. -/
theorem Traces.start (le : root.index ≤ p.names.tables) (none_ : p.draft.joined = []) :
    p.Traces root [] := by
  refine ⟨by simp, by simpa using le, fun a name t found => ?_⟩
  rw [Draft.joinedFor?, none_] at found
  cases found

/-- Names may be taken, and the rest of the draft may change. -/
theorem Traces.of_joined (traces : p.Traces root steps) (le : p.names.tables ≤ q.names.tables)
    (same : q.draft.joined = p.draft.joined) : q.Traces root steps := by
  refine ⟨traces.distinct, fun a mem => Nat.le_trans (traces.given a mem) le, ?_⟩
  intro a name t found
  rw [Draft.joinedFor?, same] at found
  exact traces.joined a name t found

/-- A step to a fresh table may be added. -/
theorem Traces.snoc (traces : p.Traces root steps) {step : Step}
    (fresh : p.names.tables < step.2.index) (given : step.2.index ≤ q.names.tables)
    (joined : ∀ a name t, q.draft.joinedFor? a name = some t →
      p.draft.joinedFor? a name = some t ∨ ((a, name), t.tableAlias) = step) :
    q.Traces root (steps ++ [step]) := by
  have old : step.2 ∉ root :: steps.map Prod.snd := fun mem =>
    absurd (traces.given _ mem) (Nat.not_le_of_lt fresh)
  refine ⟨?_, ?_, ?_⟩
  · rw [List.map_append, ← List.cons_append]
    exact List.nodup_append.mpr ⟨traces.distinct, by simp, fun a mem b last same => old (by
      rw [List.map_singleton, List.mem_singleton] at last
      rwa [← last, ← same])⟩
  · intro a mem
    rw [List.map_append, ← List.cons_append] at mem
    rcases List.mem_append.mp mem with mem | mem
    · exact Nat.le_trans (traces.given a mem) (Nat.le_trans (Nat.le_of_lt fresh) given)
    · rw [List.map_singleton, List.mem_singleton] at mem
      rw [mem]
      exact given
  · intro a name t found
    rcases joined a name t found with before | same
    · exact List.mem_append_left _ (traces.joined a name t before)
    · rw [same]
      exact List.mem_append_right _ List.mem_cons_self

theorem KeepsTrace.trans (first : p.KeepsTrace q) (second : q.KeepsTrace r) : p.KeepsTrace r := by
  intro root steps traces
  obtain ⟨more, traces'⟩ := first root steps traces
  obtain ⟨further, traces''⟩ := second root _ traces'
  rw [List.append_assoc] at traces''
  exact ⟨more ++ further, traces''⟩

theorem KeepsTrace.of_joined (le : p.names.tables ≤ q.names.tables)
    (same : q.draft.joined = p.draft.joined) : p.KeepsTrace q := by
  intro root steps traces
  refine ⟨[], ?_⟩
  rw [List.append_nil]
  exact traces.of_joined le same

theorem KeepsTrace.refl (p : Progress) : p.KeepsTrace p :=
  .of_joined (Nat.le_refl _) rfl

end Progress

/-! ### Steps along paths -/

namespace Compile

variable {schema : Schema} {p q : Progress} {source target table : Table} {name : String}

/-- **Following a relationship is a step**, made now or before. -/
theorem Reaches.traces (reaches : Reaches schema p source name target q) {root : TableAlias}
    {steps : List Step} (traces : p.Traces root steps) :
    ∃ more, q.Traces root (steps ++ more)
      ∧ ((source.tableAlias, name), target.tableAlias) ∈ steps ++ more := by
  cases reaches with
  | again found =>
    refine ⟨[], ?_⟩
    rw [List.append_nil]
    exact ⟨traces, traces.joined _ _ _ found⟩
  | anew connects fresh =>
    refine ⟨[((source.tableAlias, name), target.tableAlias)], ?_,
      List.mem_append_right _ List.mem_cons_self⟩
    refine traces.snoc ?_ ?_ ?_
    · rw [fresh]
      exact Nat.lt_succ_self _
    · exact Nat.le_of_eq (congrArg TableAlias.index fresh)
    · intro a other t found
      by_cases same : (a, other) = (source.tableAlias, name)
      · refine .inr ?_
        simp only [Draft.joinedFor?, Draft.addRelationshipJoin, same,
          List.lookup_cons_self] at found
        cases found
        rw [same]
      · refine .inl ?_
        simp only [Draft.joinedFor?, Draft.addRelationshipJoin, List.lookup_cons] at found
        rwa [beq_false_of_ne same] at found

theorem Reaches.keepsTrace (reaches : Reaches schema p source name target q) : p.KeepsTrace q := by
  intro root steps traces
  obtain ⟨more, traces', -⟩ := reaches.traces traces
  exact ⟨more, traces'⟩

theorem Walks.keepsTrace {path : Path} (walks : Walks schema p source path target q) :
    p.KeepsTrace q := by
  induction walks with
  | arrived => exact .refl _
  | step _ _ reaches _ ih => exact reaches.keepsTrace.trans ih

theorem CountAt.keepsTrace {path : Path} {select : Select}
    (at_ : CountAt schema p table path select q) : p.KeepsTrace q := by
  obtain ⟨owner, name, r, target, key, outer, inner, many, -, -, -, rfl⟩ := at_
  exact many.2.1.keepsTrace.trans (.of_joined (Nat.le_succ _) rfl)

theorem Pending.keepsTrace {e : Expression} {pending : PendingOperand}
    (side : Pending schema table p e pending q) : p.KeepsTrace q := by
  cases side with
  | field at_ =>
    obtain ⟨name, owner, -, walks, -⟩ := at_
    exact walks.keepsTrace
  | count at_ => exact at_.keepsTrace
  | constant => exact .refl p
  | nullConstant => exact .refl p
  | null => exact .refl p

end Compile

namespace Filter

variable {schema : Schema}

mutual

/-- **All steps remain known while a filter is compiled.** -/
theorem Becomes.keepsTrace {table : Table} {p q : Progress} {condition : Condition} :
    (filter : Filter) → filter.Becomes schema table p condition q → p.KeepsTrace q
  | .comparison _ _ _, h => by
    simp only [Becomes] at h
    obtain ⟨l, r, type, lo, ro, middle, last, parameters, hl, hr, -, -, -, -, -, rfl⟩ := h
    exact (hl.keepsTrace.trans hr.keepsTrace).trans (.of_joined (Nat.le_refl _) rfl)
  | .and terms, h => by
    simp only [Becomes] at h
    obtain ⟨conditions, h, -⟩ := h
    exact AllBecome.keepsTrace terms h
  | .or terms, h => by
    simp only [Becomes] at h
    obtain ⟨conditions, h, -⟩ := h
    exact AllBecome.keepsTrace terms h
  | .not term, h => by
    simp only [Becomes] at h
    obtain ⟨inner, h, -⟩ := h
    exact Becomes.keepsTrace term h
  | .textMatch _ _ _, h => by
    simp only [Becomes] at h
    obtain ⟨c, info, ⟨name, owner, -, walks, -⟩, -⟩ := h
    exact walks.keepsTrace
  | .any _ _, h => by
    simp only [Becomes] at h
    obtain ⟨c, info, given, last, parameters, ⟨name, owner, -, walks, -⟩, -, -, rfl⟩ := h
    exact walks.keepsTrace.trans (.of_joined (Nat.le_refl _) rfl)
  | .has _ filter?, h => by
    simp only [Becomes] at h
    obtain ⟨owner, name, r, target, key, outer, inner, condition?, last, many, -, -, below, -,
      rfl⟩ := h
    -- The query inside has a draft of its own, and only its names are taken.
    have names := (OptionBecomes.quiet filter? below).names
    exact many.2.1.keepsTrace.trans (.of_joined (Nat.le_trans (Nat.le_succ _) names) rfl)
  | .isType _ _, h => by
    simp only [Becomes] at h

theorem AllBecome.keepsTrace {table : Table} {p q : Progress} {conditions : List Condition} :
    (terms : List Filter) → AllBecome schema table terms p conditions q → p.KeepsTrace q
  | [], h => by
    simp only [AllBecome] at h
    rw [h.2]
    exact .refl p
  | term :: rest, h => by
    simp only [AllBecome] at h
    obtain ⟨condition, others, middle, first, after, -⟩ := h
    exact (Becomes.keepsTrace term first).trans (AllBecome.keepsTrace rest after)

end

theorem OptionBecomes.keepsTrace {table : Table} {p q : Progress} {condition? : Option Condition}
    {filter? : Option Filter} (h : OptionBecomes schema table filter? p condition? q) :
    p.KeepsTrace q := by
  cases filter? with
  | none =>
    simp only [OptionBecomes] at h
    rw [h.2]
    exact .refl p
  | some filter =>
    simp only [OptionBecomes] at h
    obtain ⟨condition, h, -⟩ := h
    exact Becomes.keepsTrace filter h

end Filter

/-! ### Steps of sorts -/

section Sorts

variable {schema : Schema} {table : Table} {p q : Progress}

theorem SortElement.Becomes.keepsTrace {element : SortElement} {term : OrderTerm}
    (h : element.Becomes schema table p term q) : p.KeepsTrace q := by
  unfold SortElement.Becomes at h
  split at h
  · obtain ⟨c, info, last, ⟨name, owner, -, walks, -⟩, -, rfl⟩ := h
    refine walks.keepsTrace.trans ?_
    split
    · exact .refl last
    · refine .of_joined (Nat.le_refl _) ?_
      unfold Draft.addSortColumn
      split <;> rfl
  · obtain ⟨select, at_, -⟩ := h
    exact at_.keepsTrace

/-- All steps remain known while a sort is compiled. -/
theorem Compile.Orders.keepsTrace {sort : List SortElement} {terms : List OrderTerm}
    (h : Orders schema table sort p terms q) : p.KeepsTrace q := by
  induction sort generalizing p terms with
  | nil =>
    rw [h.2]
    exact .refl p
  | cons element rest ih =>
    obtain ⟨term, others, middle, first, after, -⟩ := h
    exact first.keepsTrace.trans (ih after)

/-- All steps remain known while the order around a page is compiled. -/
theorem Compile.OuterOrders.keepsTrace {terms outer : List OrderTerm} {sort : List SortElement}
    (h : OuterOrders schema table terms sort p outer q) : p.KeepsTrace q := by
  induction terms generalizing p outer sort with
  | nil =>
    rw [h.2]
    exact .refl p
  | cons term rest ih =>
    cases sort with
    | nil =>
      rw [h.2]
      exact .refl p
    | cons element sort =>
      obtain ⟨first, others, middle, hfirst, after, -⟩ := h
      split at hfirst
      · rw [hfirst.2] at after
        exact ih after
      · exact hfirst.keepsTrace.trans (ih after)

end Sorts

end ResourceQuery
