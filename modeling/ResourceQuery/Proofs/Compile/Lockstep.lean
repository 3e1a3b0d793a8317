import ResourceQuery.Compile.Query
import ResourceQuery.Proofs.Sql.Erasure

/-!
# Two compilations in lockstep

Two computations are in lockstep if, begun where only values differ, they end where only values
differ, whenever both succeed.  Nothing is said about failures.  The rules below take two
computations apart along their steps, and the compiler is in lockstep with itself wherever no
constants are involved.

## Main Definitions

- `Draft.erase`, `Progress.erase`: a query under construction, without values.
- `Compile.Lockstep`: two computations agree except for values.

## Main Statements

- `Compile.Lockstep.bind`: sequential composition, and one rule for each primitive.
- `Draft.assemble_erase`: a query is assembled as if there were no values.
- `Compile.Lockstep.queryTable`, `Compile.Lockstep.correlated`: queries inside queries.
- `Compile.lockstep_orderTerms`: sort elements.
-/

namespace ResourceQuery

open Sql (Table Source Select Selector Entry Column Condition OrderTerm TableAlias Limit JoinOn
  Parameter)

/-! ### Drafts without values -/

/-- A joined source without values. -/
def Join.erase (join : Join) : Join :=
  ⟨join.source.erase, join.on⟩

namespace Draft

/-- A query under construction, without values. -/
def erase (d : Draft) : Draft :=
  { d with joins := d.joins.map Join.erase }

theorem addRelationshipJoin_erase (d : Draft) (source : TableAlias) (name : String) (table : Table)
    (join : Join) : (d.addRelationshipJoin source name table join).erase
      = d.erase.addRelationshipJoin source name table join.erase := by
  simp [addRelationshipJoin, erase]

theorem addJoin_erase (d : Draft) (join : Join) :
    (d.addJoin join).erase = d.erase.addJoin join.erase := by
  simp [addJoin, erase]

theorem addSelectors_erase (d : Draft) (a : TableAlias) (more : List Selector) :
    (d.addSelectors a more).erase = d.erase.addSelectors a more := rfl

theorem addSortColumn_erase (d : Draft) (column : Column) :
    (d.addSortColumn column).erase = d.erase.addSortColumn column := by
  simp only [addSortColumn, apply_ite Draft.erase]
  rfl

theorem move_erase (d : Draft) (former enclosing : TableAlias) :
    (d.move former enclosing).erase = d.erase.move former enclosing := rfl

theorem joinAliases_erase (d : Draft) : d.erase.joinAliases = d.joinAliases := by
  simp [joinAliases, erase, List.filterMap_map, Function.comp_def, Join.erase]

theorem selectorsOf_erase (d : Draft) (source : Source) :
    d.erase.selectorsOf source.erase = d.selectorsOf source := by
  simp only [selectorsOf, Source.alias?_erase]
  rfl

theorem entries_erase (d : Draft) (start : Source) (selectors : List Selector) :
    d.erase.entries start.erase selectors = Entry.eraseAll (d.entries start selectors) := by
  have joins : ∀ joins : List Join,
      (joins.map Join.erase).map (fun join =>
        (⟨join.source, some join.on, d.erase.selectorsOf join.source⟩ : Entry))
      = Entry.eraseAll (joins.map (fun join =>
        ⟨join.source, some join.on, d.selectorsOf join.source⟩)) := by
    intro joins
    induction joins with
    | nil => rfl
    | cons join rest ih =>
      rw [List.map_cons, List.map_cons, List.map_cons, Entry.eraseAll, ih, Join.erase,
        selectorsOf_erase]
  simp only [entries, Entry.eraseAll]
  exact congrArg _ (joins d.joins)

/-- **A query is assembled as if there were no values.** -/
theorem assemble_erase (d : Draft) (start : Source) (selectors : List Selector)
    (filter? : Option Condition) (order? : Option (List OrderTerm)) (limit? : Option Limit) :
    d.erase.assemble start.erase selectors (Condition.eraseOption filter?)
        (OrderTerm.eraseOption order?) (limit?.map Limit.erase)
      = Select.erase <$> d.assemble start selectors filter? order? limit? := by
  rw [assemble, assemble, ← Select.repair_erase, entries_erase, Select.erase]
  rfl

end Draft

/-- What has been compiled, without values. -/
def Progress.erase (p : Progress) : Progress :=
  ⟨p.names, p.draft.erase⟩

theorem Progress.erase_eq_iff {p p' : Progress} :
    p.erase = p'.erase ↔ p.names = p'.names ∧ p.draft.erase = p'.draft.erase := by
  simp only [Progress.erase, Progress.mk.injEq]

namespace Compile

variable {α α' β β' : Type}

/-! ### Rules -/

/-- **Two computations are in lockstep**: if both succeed where only values differ, their results
are related, and the progress made differs only in values. -/
def Lockstep (R : α → α' → Prop) (action : Compile α) (action' : Compile α') : Prop :=
  ∀ p p' a q a' q', p.erase = p'.erase → action p = .ok (a, q) → action' p' = .ok (a', q') →
    R a a' ∧ q.erase = q'.erase

namespace Lockstep

variable {R : α → α' → Prop} {action : Compile α} {action' : Compile α'}

/-- **Sequential composition.** -/
theorem bind {S : β → β' → Prop} {next : α → Compile β} {next' : α' → Compile β'}
    (first : Lockstep R action action') (rest : ∀ a a', R a a' → Lockstep S (next a) (next' a')) :
    Lockstep S (action >>= next) (action' >>= next') := by
  intro p p' b r b' r' same ran ran'
  change StateT.bind action next p = .ok (b, r) at ran
  change StateT.bind action' next' p' = .ok (b', r') at ran'
  simp only [StateT.bind] at ran ran'
  cases h : action p with
  | error e =>
    rw [h] at ran
    cases ran
  | ok result =>
    cases h' : action' p' with
    | error e =>
      rw [h'] at ran'
      cases ran'
    | ok result' =>
      rw [h] at ran
      rw [h'] at ran'
      obtain ⟨related, after⟩ := first p p' _ _ _ _ same h h'
      exact rest _ _ related _ _ b r b' r' after ran ran'

/-- Sequential composition after equal results. -/
theorem bind_eq {S : β → β' → Prop} {action action' : Compile α} {next : α → Compile β}
    {next' : α → Compile β'} (first : Lockstep Eq action action')
    (rest : ∀ a, Lockstep S (next a) (next' a)) :
    Lockstep S (action >>= next) (action' >>= next') := by
  refine first.bind ?_
  rintro a _ rfl
  exact rest a

/-- Results of whole statements are related. -/
theorem run (h : Lockstep R action action') {a : α} {a' : α'} (ran : Compile.run action = .ok a)
    (ran' : Compile.run action' = .ok a') : R a a' := by
  unfold Compile.run at ran ran'
  split at ran
  · rename_i q hq
    split at ran'
    · rename_i q' hq'
      cases ran
      cases ran'
      exact (h _ _ _ _ _ _ rfl hq hq').1
    · cases ran'
  · cases ran

/-- A query inside the current one. -/
theorem inner (h : Lockstep R action action') :
    Lockstep (fun result result' => R result.1 result'.1 ∧ result.2.erase = result'.2.erase)
      (Compile.inner action) (Compile.inner action') := by
  intro p p' a q a' q' same ran ran'
  unfold Compile.inner at ran ran'
  split at ran
  · rename_i found after found_ok
    split at ran'
    · rename_i found' after' found_ok'
      cases ran
      cases ran'
      obtain ⟨names, drafts⟩ := Progress.erase_eq_iff.mp same
      have begun : Progress.erase ⟨p.names, Draft.empty⟩ = Progress.erase ⟨p'.names, Draft.empty⟩ :=
        Progress.erase_eq_iff.mpr ⟨names, rfl⟩
      obtain ⟨related, ended⟩ := h _ _ _ _ _ _ begun found_ok found_ok'
      obtain ⟨names', drafts'⟩ := Progress.erase_eq_iff.mp ended
      exact ⟨⟨related, drafts'⟩, Progress.erase_eq_iff.mpr ⟨names', drafts⟩⟩
    · cases ran'
  · cases ran

end Lockstep

variable {R : α → α' → Prop}

theorem lockstep_pure {a : α} {a' : α'} (h : R a a') : Lockstep R (pure a) (pure a') := by
  intro p p' b q b' q' same ran ran'
  cases ran
  cases ran'
  exact ⟨h, same⟩

theorem lockstep_fail {e : CompileError} {action' : Compile α'} :
    Lockstep R (fail e) action' := by
  intro p p' a q a' q' _ ran
  cases ran

theorem lockstep_fail_right {e : CompileError} {action : Compile α} :
    Lockstep R action (fail e) := by
  intro p p' a q a' q' _ _ ran'
  cases ran'

/-- Computations that may be given up at once. -/
theorem Lockstep.ite_fail {c c' : Prop} [Decidable c] [Decidable c'] {e e' : CompileError}
    {action : Compile α} {action' : Compile α'} (h : Lockstep R action action') :
    Lockstep R (if c then fail e else action) (if c' then fail e' else action') := by
  split
  · exact lockstep_fail
  · split
    · exact lockstep_fail_right
    · exact h

theorem lockstep_lift {result : Except CompileError α} {result' : Except CompileError α'}
    (h : ∀ a a', result = .ok a → result' = .ok a' → R a a') :
    Lockstep R (lift result) (lift result') := by
  intro p p' a q a' q' same ran ran'
  cases result with
  | error e => cases ran
  | ok b =>
    cases result' with
    | error e => cases ran'
    | ok b' =>
      cases ran
      cases ran'
      exact ⟨h _ _ rfl rfl, same⟩

/-- The same outcome on both sides. -/
theorem lockstep_lift_same (result : Except CompileError α) :
    Lockstep Eq (lift result) (lift result) := by
  refine lockstep_lift fun a a' h h' => ?_
  cases h.symm.trans h'
  rfl

theorem lockstep_lookup (result : Except LookupError α) :
    Lockstep Eq (lookup result) (lookup result) :=
  lockstep_lift_same _

theorem lockstep_tree (result : Except Sql.TreeError α) :
    Lockstep Eq (tree result) (tree result) :=
  lockstep_lift_same _

/-- Trees that are equal up to something are related by this. -/
theorem lockstep_tree_map {result result' : Except Sql.TreeError α} {γ : Type} (f : α → γ)
    (same : f <$> result = f <$> result') :
    Lockstep (fun a a' => f a = f a') (tree result) (tree result') := by
  refine lockstep_lift fun a a' h h' => ?_
  cases result with
  | error e => cases h
  | ok b =>
    cases result' with
    | error e => cases h'
    | ok b' =>
      cases h
      cases h'
      exact Except.ok.inj same

theorem lockstep_draft : Lockstep (fun d d' => d.erase = d'.erase) draft draft := by
  intro p p' a q a' q' same ran ran'
  cases ran
  cases ran'
  exact ⟨(Progress.erase_eq_iff.mp same).2, same⟩

theorem lockstep_changeDraft {change change' : Draft → Draft}
    (h : ∀ d d', d.erase = d'.erase → (change d).erase = (change' d').erase) :
    Lockstep Eq (changeDraft change) (changeDraft change') := by
  intro p p' a q a' q' same ran ran'
  cases ran
  cases ran'
  obtain ⟨names, drafts⟩ := Progress.erase_eq_iff.mp same
  exact ⟨rfl, Progress.erase_eq_iff.mpr ⟨names, h _ _ drafts⟩⟩

theorem lockstep_newAlias : Lockstep Eq newAlias newAlias := by
  intro p p' a q a' q' same ran ran'
  cases ran
  cases ran'
  obtain ⟨names, drafts⟩ := Progress.erase_eq_iff.mp same
  simp only [Progress.erase_eq_iff, names, drafts, and_self]

theorem lockstep_newParameter {value value' : Sql.Value} (same : value.erase = value'.erase) :
    Lockstep (fun p p' => p.erase = p'.erase) (newParameter value) (newParameter value') := by
  intro p p' a q a' q' begun ran ran'
  cases ran
  cases ran'
  obtain ⟨names, drafts⟩ := Progress.erase_eq_iff.mp begun
  simp only [Progress.erase_eq_iff, names, drafts, Parameter.erase, same, and_self]

theorem lockstep_newTable (schema : Schema) (resourceType : String) :
    Lockstep Eq (newTable schema resourceType) (newTable schema resourceType) :=
  lockstep_newAlias.bind_eq fun _ => lockstep_lookup _

/-! ### Following relationships -/

theorem lockstep_joinRelationship (schema : Schema) (source : Table) (name : String) :
    Lockstep Eq (joinRelationship schema source name) (joinRelationship schema source name) := by
  refine lockstep_draft.bind fun d d' same => ?_
  have joined : d.joinedFor? source.tableAlias name = d'.joinedFor? source.tableAlias name := by
    show d.erase.joinedFor? source.tableAlias name = d'.erase.joinedFor? source.tableAlias name
    rw [same]
  rw [joined]
  split
  · exact lockstep_pure rfl
  · refine (lockstep_lookup _).bind_eq fun relationship => ?_
    refine (lockstep_lookup _).bind_eq fun key => ?_
    refine (lockstep_newTable _ _).bind_eq fun target => ?_
    refine (lockstep_tree _).bind_eq fun columns => ?_
    refine (lockstep_tree _).bind_eq fun on => ?_
    refine (lockstep_changeDraft fun d d' same => ?_).bind_eq fun _ => lockstep_pure rfl
    rw [Draft.addRelationshipJoin_erase, Draft.addRelationshipJoin_erase, same]

theorem lockstep_followToOne (schema : Schema) (source : Table) (path : Path) :
    Lockstep Eq (followToOne schema source path) (followToOne schema source path) := by
  induction path generalizing source with
  | nil => exact lockstep_pure rfl
  | cons name rest ih =>
    refine (lockstep_lookup _).bind_eq fun relationship => ?_
    split
    · exact (lockstep_joinRelationship _ _ _).bind_eq fun table => ih table
    · exact lockstep_fail

theorem lockstep_followToMany (schema : Schema) (source : Table) (path : Path) (place : PathUse) :
    Lockstep Eq (followToMany schema source path place)
      (followToMany schema source path place) := by
  unfold followToMany
  split
  · exact lockstep_fail
  · refine (lockstep_followToOne _ _ _).bind_eq fun owner => ?_
    refine (lockstep_lookup _).bind_eq fun relationship => ?_
    split
    · exact lockstep_pure rfl
    · exact lockstep_fail

theorem lockstep_fieldColumn (schema : Schema) (source : Table) (path : Path) :
    Lockstep Eq (fieldColumn schema source path) (fieldColumn schema source path) := by
  unfold fieldColumn
  split
  · exact lockstep_fail
  · refine (lockstep_followToOne _ _ _).bind_eq fun owner => ?_
    refine (lockstep_lift_same _).bind_eq fun info => ?_
    exact (lockstep_tree _).bind_eq fun column => lockstep_pure rfl

/-! ### Queries inside queries -/

/-- Queries are finished in lockstep if their parts differ only in values. -/
theorem lockstep_assemble {d d' : Draft} {start start' : Source} {selectors : List Selector}
    {filter? filter?' : Option Condition} {order? order?' : Option (List OrderTerm)}
    {limit? limit?' : Option Limit} (drafts : d.erase = d'.erase)
    (starts : start.erase = start'.erase)
    (filters : Condition.eraseOption filter? = Condition.eraseOption filter?')
    (orders : OrderTerm.eraseOption order? = OrderTerm.eraseOption order?')
    (limits : limit?.map Limit.erase = limit?'.map Limit.erase) :
    Lockstep (fun s s' => s.erase = s'.erase)
      (tree (d.assemble start selectors filter? order? limit?))
      (tree (d'.assemble start' selectors filter?' order?' limit?')) := by
  refine lockstep_tree_map Select.erase ?_
  rw [← Draft.assemble_erase, ← Draft.assemble_erase, drafts, starts, filters, orders, limits]

/-- A query over a table is in lockstep if its condition is. -/
theorem Lockstep.queryTable {table : Table} {shape : QueryShape}
    {condition condition' : Compile (Option Condition)}
    (h : Lockstep (fun c c' => Condition.eraseOption c = Condition.eraseOption c') condition
      condition') :
    Lockstep (fun s s' => s.erase = s'.erase) (Compile.queryTable table shape condition)
      (Compile.queryTable table shape condition') := by
  refine h.inner.bind fun result result' same => ?_
  exact lockstep_assemble same.2 rfl same.1 rfl rfl

/-- A query over related rows is in lockstep if its condition is. -/
theorem Lockstep.correlated {schema : Schema} {source : Table} {name : String} {shape : QueryShape}
    {condition condition' : Table → Compile (Option Condition)}
    (h : ∀ table, Lockstep (fun c c' => Condition.eraseOption c = Condition.eraseOption c')
      (condition table) (condition' table)) :
    Lockstep (fun s s' => s.erase = s'.erase)
      (Compile.correlated schema source name shape condition)
      (Compile.correlated schema source name shape condition') := by
  refine (lockstep_lookup _).bind_eq fun relationship => ?_
  refine (lockstep_lookup _).bind_eq fun key => ?_
  refine (lockstep_newTable _ _).bind_eq fun target => ?_
  refine (h target).queryTable.bind fun s s' same => ?_
  refine (lockstep_tree _).bind_eq fun columns => lockstep_pure ?_
  rw [← Select.restrict_erase, ← Select.restrict_erase, same]

theorem lockstep_relatedCount (schema : Schema) (source : Table) (path : Path) (place : PathUse) :
    Lockstep (fun s s' => s.erase = s'.erase) (relatedCount schema source path place)
      (relatedCount schema source path place) :=
  (lockstep_followToMany _ _ _ _).bind_eq fun _ =>
    Lockstep.correlated fun _ => lockstep_pure rfl

/-! ### Orders -/

theorem lockstep_sortElement (schema : Schema) (table : Table) (element : SortElement) :
    Lockstep (fun term term' => term.erase = term'.erase) (element.compile schema table)
      (element.compile schema table) := by
  unfold SortElement.compile
  split
  · refine (lockstep_fieldColumn _ _ _).bind_eq fun found => ?_
    have noted : Lockstep Eq (changeDraft (·.addSortColumn found.1))
        (changeDraft (·.addSortColumn found.1)) :=
      lockstep_changeDraft fun d d' same => by
        rw [Draft.addSortColumn_erase, Draft.addSortColumn_erase, same]
    dsimp only
    split
    · exact noted.bind_eq fun _ => lockstep_pure rfl
    · exact lockstep_pure rfl
  · refine (lockstep_relatedCount _ _ _ _).bind fun s s' same => lockstep_pure ?_
    simp only [OrderTerm.erase, Sql.OrderTarget.erase, same]

theorem lockstep_orderTerms (schema : Schema) (table : Table) (sort : List SortElement) :
    Lockstep (fun terms terms' => OrderTerm.eraseAll terms = OrderTerm.eraseAll terms')
      (orderTerms schema table sort) (orderTerms schema table sort) := by
  induction sort with
  | nil => exact lockstep_pure rfl
  | cons element rest ih =>
    refine (lockstep_sortElement _ _ _).bind fun term term' same => ?_
    refine ih.bind fun terms terms' others => lockstep_pure ?_
    rw [OrderTerm.eraseAll_cons, OrderTerm.eraseAll_cons, same, others]

theorem eraseOption_orderOf (terms : List OrderTerm) :
    OrderTerm.eraseOption (orderOf terms) = orderOf (OrderTerm.eraseAll terms) := by
  rw [OrderTerm.eraseAll_eq_map]
  cases terms with
  | nil => rfl
  | cons term rest => simp [orderOf, OrderTerm.eraseOption, OrderTerm.eraseAll_eq_map]

end Compile

end ResourceQuery
