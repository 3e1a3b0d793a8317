import ResourceQuery.Proofs.Compile.Conditions

/-!
# Finished queries

When a query is finished, references to tables that were moved are redirected to the derived tables
that they are now part of.  For a draft that keeps the invariant this always succeeds, and it is
known where each reference leads.

## Main Definitions

- `Remap.led`: where a reference leads among the sources of a query.
- `Draft.finishedEntries`: the sources of the finished query.
- `OrderTerm.Leads`: the references of a criterion lead to sources.
- `OrderTerm.Settles`: a criterion, and what it is in the finished query.

## Main Statements

- `Remap.redirect_of_resolves`: a reference that resolves is redirected to where it leads.
- `Draft.assemble_eq`: a query that keeps the invariant is finished.
- `Draft.wellScoped_finished`: the finished query is well scoped.
-/

namespace ResourceQuery

open Sql (Table Source Select Entry Selector Column Condition OrderTerm Remap Scope TableAlias
  JoinOn Limit)

/-! ### Where references lead -/

namespace Sql.Remap

/-- **Where a reference leads** among the sources of a query: to itself, unless its table was moved
into one of the sources, which then provides a column for it. -/
def led (m : Remap) (sources : List Source) (c : Column) : Column :=
  match c.alias? with
  | none => c
  | some a =>
    match m.get? a with
    | none => c
    | some enclosing =>
      ((sources.find? (fun s => s.alias? = some enclosing)).bind
        (fun s => s.findColumn? c.name (some a))).getD c

/-- Both sides of a join condition, where they lead. -/
def ledJoin (m : Remap) (sources : List Source) (on : JoinOn) : JoinOn :=
  ⟨on.kind, m.led sources on.outer, m.led sources on.inner⟩

variable {m : Remap} {sources before : List Source} {c : Column} {a : TableAlias}

theorem led_of_unmoved (named : c.alias? = some a) (unmoved : m.get? a = none) :
    m.led sources c = c := by
  simp only [led, named, unmoved]

@[simp] theorem led_empty : Remap.empty.led sources c = c := by
  unfold led
  split
  · rfl
  · rfl

@[simp] theorem ledJoin_empty {on : JoinOn} : Remap.empty.ledJoin sources on = on := by
  simp [ledJoin]

/-- The source of an alias is found by it. -/
theorem find?_alias {source : Source} {a : TableAlias}
    (distinct : (sources.map Source.alias?).Nodup) (mem : source ∈ sources)
    (named : source.alias? = some a) :
    sources.find? (fun s => s.alias? = some a) = some source := by
  have found : (sources.find? (fun s => s.alias? = some a)).isSome := by
    rw [List.find?_isSome]
    exact ⟨source, mem, by simp [named]⟩
  obtain ⟨other, hother⟩ := Option.isSome_iff_exists.mp found
  have same : other.alias? = source.alias? := by
    rw [named]
    simpa using List.find?_some hother
  rw [hother, List.inj_on_of_nodup_map distinct (List.mem_of_find?_eq_some hother) mem same]

/-- A reference leads to the derived table that its table was moved into. -/
theorem led_of_moved {source : Source} {enclosing : TableAlias} {found : Column}
    (distinct : (sources.map Source.alias?).Nodup) (mem : source ∈ sources)
    (named : source.alias? = some enclosing) (stale : c.alias? = some a)
    (moved : m.get? a = some enclosing)
    (provided : source.findColumn? c.name (some a) = some found) :
    m.led sources c = found := by
  simp only [led, stale, moved, find?_alias distinct mem named, Option.bind_some, provided,
    Option.getD_some]

end Sql.Remap

/-- A column that is found in a source is exposed by it, under its alias. -/
theorem Sql.Source.exposes_of_findColumn? {source : Source} {name : String}
    {inside? : Option TableAlias} {found : Column}
    (h : source.findColumn? name inside? = some found) :
    source.Exposes found ∧ found.alias? = source.alias? := by
  cases source with
  | table t =>
    have hfound : t.findColumn? name = some found := by
      simp only [Source.findColumn?] at h
      split at h
      · exact h
      · cases h
    have mem : found ∈ t.columns := by
      unfold Table.findColumn? at hfound
      split at hfound
      · rename_i hname
        cases hfound
        exact List.mem_append_left _ (List.mem_map_of_mem hname)
      · split at hfound
        · rename_i hname
          cases hfound
          exact List.mem_append_right _ (List.mem_map_of_mem hname)
        · cases hfound
    exact ⟨mem, Table.alias?_of_mem_columns mem⟩
  | derived s =>
    simp only [Source.findColumn?, Select.findColumn?, Option.map_eq_some_iff] at h
    obtain ⟨selected, hselected, rfl⟩ := h
    exact ⟨⟨selected, List.mem_of_find?_eq_some hselected, rfl⟩, rfl⟩

namespace Sql.Remap

variable {m : Remap} {sources before : List Source} {c : Column}

/-- **A reference that resolves leads to a visible column**, in a source that was known when the
reference was resolved. -/
theorem Resolves.led_visible (resolves : m.Resolves before c)
    (distinct : (sources.map Source.alias?).Nodup) (sub : before ⊆ sources) :
    (m.led sources c).VisibleIn before := by
  obtain ⟨a, ha, source, mem, leads⟩ := resolves
  cases hmove : m.get? a with
  | none =>
    simp only [hmove] at leads
    rw [led_of_unmoved ha hmove]
    exact ⟨source, mem, by rw [leads.1]; rfl, by rw [ha, leads.1], leads.2⟩
  | some enclosing =>
    simp only [hmove] at leads
    obtain ⟨named, provided⟩ := leads
    obtain ⟨found, hfound⟩ := Option.isSome_iff_exists.mp provided
    rw [led_of_moved distinct (sub mem) named ha hmove hfound]
    obtain ⟨exposes, same⟩ := Source.exposes_of_findColumn? hfound
    exact ⟨source, mem, by rw [named]; rfl, same, exposes⟩

/-- A reference that resolves leads to the source that its table is now part of. -/
theorem Resolves.led_alias (resolves : m.Resolves sources c)
    (distinct : (sources.map Source.alias?).Nodup) :
    ∃ a, c.alias? = some a ∧ (m.led sources c).alias? = some ((m.get? a).getD a) := by
  obtain ⟨a, ha, source, mem, leads⟩ := resolves
  refine ⟨a, ha, ?_⟩
  cases hmove : m.get? a with
  | none =>
    rw [led_of_unmoved ha hmove, ha]
    rfl
  | some enclosing =>
    simp only [hmove] at leads
    obtain ⟨named, provided⟩ := leads
    obtain ⟨found, hfound⟩ := Option.isSome_iff_exists.mp provided
    rw [led_of_moved distinct mem named ha hmove hfound,
      (Source.exposes_of_findColumn? hfound).2, named]
    rfl

/-- A scope that shows the sources of a query and none of the tables that were moved. -/
structure Clear (m : Remap) (sources : List Source) (scope : Scope) : Prop where
  distinct : (sources.map Source.alias?).Nodup
  shown : ∀ source ∈ sources, ∀ a, source.alias? = some a → scope.lookup a = some source
  hidden : ∀ a enclosing, m.get? a = some enclosing → scope.lookup a = none

/-- **A reference that resolves is redirected to where it leads.** -/
theorem redirect_of_resolves {scope : Scope} (clear : m.Clear sources scope)
    (resolves : m.Resolves sources c) : m.redirect scope c = .ok (m.led sources c) := by
  obtain ⟨a, ha, source, mem, leads⟩ := resolves
  cases hmove : m.get? a with
  | none =>
    simp only [hmove] at leads
    rw [led_of_unmoved ha hmove]
    simp [redirect, ha, clear.shown source mem a leads.1]
  | some enclosing =>
    simp only [hmove] at leads
    obtain ⟨named, provided⟩ := leads
    obtain ⟨found, hfound⟩ := Option.isSome_iff_exists.mp provided
    rw [led_of_moved clear.distinct mem named ha hmove hfound]
    simp [redirect, ha, clear.hidden a enclosing hmove, follow?, hmove, provided?,
      clear.shown source mem enclosing named, hfound]

end Sql.Remap

/-! ### The finished query -/

/-- The sources of the finished query, with all references redirected. -/
def Draft.finishedEntries (d : Draft) (start : Source) (selectors : List Selector) : List Entry :=
  ⟨start, none, selectors⟩ :: d.joins.map (fun join =>
    ⟨join.source, some (d.remap.ledJoin (d.sources start) join.on), d.selectorsOf join.source⟩)

@[simp] theorem Draft.map_source_entries (d : Draft) (start : Source)
    (selectors : List Selector) :
    (d.entries start selectors).map Entry.source = d.sources start := by
  simp [Draft.entries, Draft.sources, Function.comp_def]

@[simp] theorem Draft.map_source_finishedEntries (d : Draft) (start : Source)
    (selectors : List Selector) :
    (d.finishedEntries start selectors).map Entry.source = d.sources start := by
  simp [Draft.finishedEntries, Draft.sources, Function.comp_def]

theorem Draft.finishedEntries_of_unmoved {d : Draft} (unmoved : d.remap = Remap.empty)
    (start : Source) (selectors : List Selector) :
    d.finishedEntries start selectors = d.entries start selectors := by
  simp [Draft.finishedEntries, Draft.entries, unmoved]

namespace Sql.Remap

variable {m : Remap} {sources before : List Source}

/-- Every join condition leads to sources of the query. -/
theorem ResolvesJoins.resolves {joins : List Join} (resolves : m.ResolvesJoins before joins)
    {join : Join} (mem : join ∈ joins) :
    m.Resolves (before ++ joins.map Join.source) join.on.outer
      ∧ m.Resolves (before ++ joins.map Join.source) join.on.inner := by
  induction joins generalizing before with
  | nil => cases mem
  | cons first rest ih =>
    obtain ⟨outer, inner, others⟩ := resolves
    rcases List.mem_cons.mp mem with rfl | mem
    · have sub : before ++ [join.source]
          ⊆ before ++ List.map Join.source (join :: rest) := fun s hs => by grind
      exact ⟨outer.mono sub, inner.mono sub⟩
    · simpa only [List.map_cons, List.append_assoc, List.cons_append, List.nil_append]
        using ih others mem

/-- Redirected join conditions name only sources that are joined no later. -/
theorem ResolvesJoins.allScoped {joins : List Join} {visible : List Source}
    {select : Source → List Selector} (resolves : m.ResolvesJoins before joins)
    (distinct : (sources.map Source.alias?).Nodup)
    (sub : before ++ joins.map Join.source ⊆ sources)
    (closed : ∀ join ∈ joins, join.source.WellScoped)
    (selected : ∀ join ∈ joins, Selector.AllScoped visible (select join.source)) :
    Entry.AllScoped visible before (joins.map (fun join =>
      ⟨join.source, some (m.ledJoin sources join.on), select join.source⟩)) := by
  induction joins generalizing before with
  | nil => simp only [List.map_nil, Entry.AllScoped]
  | cons join rest ih =>
    obtain ⟨outer, inner, others⟩ := resolves
    have first : before ++ [join.source] ⊆ sources := fun s mem => sub (by grind)
    simp only [List.map_cons, Entry.AllScoped]
    refine ⟨closed join List.mem_cons_self, ?_, selected join List.mem_cons_self, ?_⟩
    · intro on hon
      cases hon
      exact ⟨outer.led_visible distinct first, inner.led_visible distinct first⟩
    · refine ih others ?_ (fun j mem => closed j (List.mem_cons_of_mem _ mem))
        (fun j mem => selected j (List.mem_cons_of_mem _ mem))
      simpa using sub

end Sql.Remap

theorem Sql.Selector.allScoped_of_columns {visible : List Source} {selectors : List Selector}
    (h : ∀ selector ∈ selectors, ∃ c rename?, selector = .column c rename?
      ∧ c.VisibleIn visible) : Selector.AllScoped visible selectors := by
  induction selectors with
  | nil => simp only [Selector.AllScoped]
  | cons selector rest ih =>
    obtain ⟨c, rename?, rfl, hc⟩ := h selector List.mem_cons_self
    simp only [Selector.AllScoped, Selector.Scoped]
    exact ⟨hc, ih fun other mem => h other (List.mem_cons_of_mem _ mem)⟩

/-- Redirection leaves closed sources as they are, and declares them. -/
theorem Sql.Entry.redirectSources_of_closed {m : Remap} {scope : Scope} {entries : List Entry}
    (closed : ∀ source ∈ entries.map Entry.source, source.WellScoped) :
    Entry.redirectSources m scope entries
      = .ok (entries, scope.declareAll (entries.map Entry.source)) := by
  induction entries generalizing scope with
  | nil => rfl
  | cons entry rest ih =>
    obtain ⟨source, join?, selectors⟩ := entry
    rw [List.map_cons] at closed
    have first : source.redirect m scope = .ok source :=
      Source.redirect_of_wellScoped m source (closed source List.mem_cons_self)
    have others := @ih (scope.declare source) (fun s mem => closed s (List.mem_cons_of_mem _ mem))
    simp only [Entry.redirectSources, first, others, bind, Except.bind]
    rfl

namespace Progress.Fits

variable {schema : Schema} {start : Source} {p : Progress}

/-- The selectors of a source name sources of the query. -/
theorem selectorsOf_visible (fits : p.Fits schema start) (source : Source) :
    ∀ selector ∈ p.draft.selectorsOf source, ∃ c rename?, selector = .column c rename?
      ∧ c.VisibleIn (p.draft.sources start) := by
  intro selector mem
  unfold Draft.selectorsOf at mem
  split at mem
  · rename_i a ha
    cases hfound : p.draft.selectors.lookup a with
    | none =>
      rw [hfound] at mem
      cases mem
    | some selectors =>
      rw [hfound] at mem
      obtain ⟨_, _, hsplit, -⟩ := List.lookup_eq_some_iff.mp hfound
      have listed : (a, selectors) ∈ p.draft.selectors := by
        rw [hsplit]
        simp
      exact fits.selected _ listed selector mem
  · cases mem

/-- What is visible when all sources of a query have been declared. -/
theorem clear (fits : p.Fits schema start) :
    p.draft.remap.Clear (p.draft.sources start)
      (Scope.empty.declareAll (p.draft.sources start)) := by
  refine ⟨fits.distinct, ?_, ?_⟩
  · intro source mem a ha
    exact Scope.lookup_declareAll fits.distinct mem ha
  · intro a enclosing hmove
    rw [Scope.lookup_declareAll_of_ne (fits.moved a enclosing hmove).2]
    rfl

theorem resolves_join (fits : p.Fits schema start) {join : Join}
    (mem : join ∈ p.draft.joins) :
    p.draft.remap.Resolves (p.draft.sources start) join.on.outer
      ∧ p.draft.remap.Resolves (p.draft.sources start) join.on.inner :=
  fits.conditions.resolves mem

theorem redirectJoins_entries (fits : p.Fits schema start) (selectors : List Selector) :
    p.draft.remap.redirectJoins (Scope.empty.declareAll (p.draft.sources start))
        (p.draft.entries start selectors)
      = .ok (p.draft.finishedEntries start selectors) := by
  have joins : ∀ js : List Join, js ⊆ p.draft.joins →
      p.draft.remap.redirectJoins (Scope.empty.declareAll (p.draft.sources start))
          (js.map (fun join => ⟨join.source, some join.on, p.draft.selectorsOf join.source⟩))
        = .ok (js.map (fun join => ⟨join.source,
            some (p.draft.remap.ledJoin (p.draft.sources start) join.on),
            p.draft.selectorsOf join.source⟩)) := by
    intro js sub
    induction js with
    | nil => rfl
    | cons join rest ih =>
      obtain ⟨outer, inner⟩ := fits.resolves_join (sub List.mem_cons_self)
      have others := ih fun j mem => sub (List.mem_cons_of_mem _ mem)
      simp only [List.map_cons, Remap.redirectJoins, Remap.redirectJoin,
        Remap.redirect_of_resolves fits.clear outer, Remap.redirect_of_resolves fits.clear inner,
        others, bind, Except.bind]
      rfl
  simp only [Draft.entries, Remap.redirectJoins, Remap.redirectJoin,
    joins p.draft.joins (List.Subset.refl _), bind, Except.bind]
  rfl

/-- The sources of the finished query are well scoped. -/
theorem allScoped_finishedEntries (fits : p.Fits schema start) {visible : List Source}
    (sub : p.draft.sources start ⊆ visible) {selectors : List Selector}
    (hselectors : Selector.AllScoped visible selectors) :
    Entry.AllScoped visible [] (p.draft.finishedEntries start selectors) := by
  simp only [Draft.finishedEntries, Entry.AllScoped]
  refine ⟨fits.closed start List.mem_cons_self, (fun on hon => by cases hon), hselectors, ?_⟩
  refine fits.conditions.allScoped fits.distinct (List.Subset.refl _) ?_ ?_
  · intro join mem
    exact fits.closed _ (List.mem_cons_of_mem _ (List.mem_map_of_mem mem))
  · intro join _
    refine Selector.allScoped_of_columns fun selector mem => ?_
    obtain ⟨c, rename?, hc, hvisible⟩ := fits.selectorsOf_visible join.source selector mem
    exact ⟨c, rename?, hc, hvisible.mono sub⟩

end Progress.Fits

/-- A finished query is well scoped if its select list, its condition and its order are. -/
theorem Draft.wellScoped_finished {schema : Schema} {start : Source} {p : Progress}
    {around : List Source} (fits : p.Fits schema start) {selectors : List Selector}
    {filter? : Option Condition} {order? : Option (List OrderTerm)} {limit? : Option Limit}
    {alias? : Option TableAlias}
    (hselectors : Selector.AllScoped (p.draft.sources start ++ around) selectors)
    (hfilter : Condition.OptionScoped (p.draft.sources start ++ around) filter?)
    (horder : OrderTerm.OptionScoped (p.draft.sources start ++ around) order?) :
    Select.WellScoped around
      ⟨p.draft.finishedEntries start selectors, filter?, order?, limit?, alias?⟩ := by
  simp only [Select.WellScoped, Draft.map_source_finishedEntries]
  refine ⟨⟨rfl, ?_⟩, ?_, hfilter, horder⟩
  · intro entry mem
    obtain ⟨join, -, rfl⟩ := List.mem_map.mp mem
    rfl
  · exact fits.allScoped_finishedEntries (List.subset_append_left _ _) hselectors

/-! ### Queries over a table -/

theorem Sql.Condition.allScoped_iff {visible : List Source} {terms : List Condition} :
    Condition.AllScoped visible terms ↔ ∀ term ∈ terms, term.Scoped visible := by
  induction terms with
  | nil => simp [Condition.AllScoped]
  | cons term rest ih => simp [Condition.AllScoped, ih]

/-- A combination of terms names what the terms name. -/
theorem Sql.Condition.scoped_combine {visible : List Source} {op : Sql.LogicalOp}
    {terms : List Condition} (h : ∀ term ∈ terms, term.Scoped visible) :
    (Condition.combine op terms).Scoped visible := by
  have flat : ∀ term ∈ terms.flatMap (Condition.termsFor op), term.Scoped visible := by
    intro term mem
    obtain ⟨whole, hwhole, mem⟩ := List.mem_flatMap.mp mem
    have hscoped := h whole hwhole
    unfold Condition.termsFor at mem
    split at mem
    · split at mem
      · simp only [Condition.Scoped] at hscoped
        exact Condition.allScoped_iff.mp hscoped term mem
      · rw [List.mem_singleton] at mem
        rw [mem]
        exact hscoped
    · rw [List.mem_singleton] at mem
      rw [mem]
      exact hscoped
  unfold Condition.combine
  split
  · rename_i term hterms
    exact flat term (by rw [hterms]; exact List.mem_singleton_self _)
  · simp only [Condition.Scoped]
    exact Condition.allScoped_iff.mpr flat

namespace Compile

variable {schema : Schema} {target : Table} {last : Progress} {condition? : Option Condition}

/-- The select list of a query over a table names the table. -/
theorem allScoped_selectors {shape : QueryShape} {visible : List Source}
    (mem : .table target ∈ visible) :
    Selector.AllScoped visible (shape.selectors target) := by
  cases shape with
  | columns =>
    refine Selector.allScoped_of_columns fun selector hselector => ?_
    obtain ⟨c, hc, rfl⟩ := List.mem_map.mp hselector
    exact ⟨c, none, rfl, _, mem, rfl, Table.alias?_of_mem_columns hc, hc⟩
  | count => simp [QueryShape.selectors, Selector.AllScoped, Selector.Scoped]
  | one => simp [QueryShape.selectors, Selector.AllScoped, Selector.Scoped]

/-- **A query over a table is well scoped** if its condition is. -/
theorem wellScoped_plainQuery {shape : QueryShape} {around : List Source}
    (fits : last.Fits schema (.table target)) (unmoved : last.draft.remap = Remap.empty)
    (condition : Condition.OptionScoped (last.draft.sources (.table target) ++ around)
      condition?) : (plainQuery target shape last.draft condition?).WellScoped around := by
  unfold plainQuery
  rw [← Draft.finishedEntries_of_unmoved unmoved]
  refine Draft.wellScoped_finished fits (allScoped_selectors ?_) condition ?_
  · exact List.mem_append_left _ List.mem_cons_self
  · simp only [OrderTerm.OptionScoped]

/-- **A query over related rows is well scoped** where the row that they are related to is
visible. -/
theorem wellScoped_relatedQuery {shape : QueryShape} {around : List Source}
    {outer inner : Column} (fits : last.Fits schema (.table target))
    (unmoved : last.draft.remap = Remap.empty)
    (condition : Condition.OptionScoped (last.draft.sources (.table target) ++ around)
      condition?)
    (houter : outer.VisibleIn around) (hinner : inner ∈ target.columns) :
    (relatedQuery target shape last.draft condition? outer inner).WellScoped around := by
  have key : (Condition.columnsEqual outer inner).Scoped
      (last.draft.sources (.table target) ++ around) := by
    simp only [Condition.columnsEqual, Condition.Scoped, Sql.Operand.Scoped]
    refine ⟨houter.mono (List.subset_append_right _ _), .table target, ?_, rfl,
      Table.alias?_of_mem_columns hinner, hinner⟩
    exact List.mem_append_left _ List.mem_cons_self
  refine wellScoped_plainQuery fits unmoved ?_
  cases condition? with
  | none =>
    simp only [plainQuery, Condition.OptionScoped]
    exact key
  | some existing =>
    simp only [Condition.OptionScoped] at condition
    simp only [plainQuery, Condition.OptionScoped, Condition.all]
    refine Condition.scoped_combine fun term mem => ?_
    rcases List.mem_pair.mp mem with rfl | rfl
    · exact key
    · exact condition

end Compile

/-! ### Criteria of an order -/

namespace Sql.OrderTerm

open Compile (relatedQuery)

/-- **The references of a criterion lead to sources.**  A number is counted in a table of its own,
whose alias has been given out, but neither to a source nor to a table that was moved. -/
inductive Leads (m : Remap) (sources : List Source) (n : Nat) : OrderTerm → Prop
  | column {c : Column} {descending : Bool} (resolves : m.Resolves sources c) :
      Leads m sources n ⟨.column c, descending⟩
  | count {target : Table} {outer inner : Column} {descending : Bool}
      (resolves : m.Resolves sources outer) (counted : inner ∈ target.columns)
      (taken : target.tableAlias.index ≤ n) (unmoved : m.get? target.tableAlias = none)
      (apart : ∀ source ∈ sources, source.alias? ≠ some target.tableAlias) :
      Leads m sources n
        ⟨.count (relatedQuery target .count Draft.empty none outer inner), descending⟩

/-- **A criterion, and what it is in the finished query.** -/
inductive Settles (m : Remap) (sources : List Source) : OrderTerm → OrderTerm → Prop
  | column {c : Column} {descending : Bool} :
      Settles m sources ⟨.column c, descending⟩ ⟨.column (m.led sources c), descending⟩
  | count {target : Table} {outer inner : Column} {descending : Bool} :
      Settles m sources
        ⟨.count (relatedQuery target .count Draft.empty none outer inner), descending⟩
        ⟨.count (relatedQuery target .count Draft.empty none (m.led sources outer) inner),
          descending⟩

variable {m : Remap} {sources : List Source} {n : Nat}

/-- A query that counts the related rows of a table is redirected at the reference to the table
outside it. -/
theorem redirect_relatedCount {scope : Scope} {target : Table} {outer inner : Column}
    (clear : m.Clear sources scope) (resolves : m.Resolves sources outer)
    (counted : inner ∈ target.columns) (unmoved : m.get? target.tableAlias = none)
    (apart : ∀ source ∈ sources, source.alias? ≠ some target.tableAlias) :
    (relatedQuery target .count Draft.empty none outer inner).redirect m scope
      = .ok (relatedQuery target .count Draft.empty none (m.led sources outer) inner) := by
  -- The query inside declares one more table, which no reference of the query around it means.
  have clear' : m.Clear sources (scope.declare (.table target)) := by
    refine ⟨clear.distinct, ?_, ?_⟩
    · intro source mem a ha
      rw [Scope.lookup_declare, if_neg ?_]
      · exact clear.shown source mem a ha
      · intro same
        exact apart source mem (ha.trans same.symm)
    · intro a enclosing hmove
      rw [Scope.lookup_declare, if_neg ?_]
      · exact clear.hidden a enclosing hmove
      · intro same
        cases same
        rw [unmoved] at hmove
        cases hmove
  have shows : (scope.declare (.table target)).Shows [.table target] := by
    intro source mem a ha
    rw [List.mem_singleton] at mem
    subst mem
    rw [Scope.lookup_declare, if_pos ha]
    rfl
  have visible : inner.VisibleIn [.table target] :=
    ⟨_, List.mem_singleton_self _, rfl, Table.alias?_of_mem_columns counted, counted⟩
  simp only [relatedQuery, Compile.plainQuery, Draft.entries, Draft.empty, List.map_nil,
    Select.restrict, Condition.columnsEqual, Select.redirect, Entry.redirectSources,
    Source.redirect, Remap.redirectJoins, Remap.redirectJoin, Condition.redirectOption,
    Condition.redirect, Operand.redirect, OrderTerm.redirectOption,
    m.redirect_of_visible shows visible, Remap.redirect_of_resolves clear' resolves, bind,
    Except.bind, pure, Except.pure]

/-- The query that counts related rows sees the source of the row that they are related to. -/
theorem wellScoped_relatedCount {target : Table} {outer inner : Column}
    (visible : outer.VisibleIn sources) (counted : inner ∈ target.columns) :
    (relatedQuery target .count Draft.empty none outer inner).WellScoped sources := by
  have fits : Progress.Fits Schema.empty (.table target)
      ⟨⟨target.tableAlias.index, 0⟩, Draft.empty⟩ := .ofTable (Nat.le_refl _)
  refine Compile.wellScoped_relatedQuery fits rfl ?_ visible counted
  simp only [Condition.OptionScoped]

/-- **Criteria whose references lead to sources can be settled**: they are redirected, and then
name sources of the query. -/
theorem exists_settled (distinct : (sources.map Source.alias?).Nodup) {terms : List OrderTerm}
    (leads : ∀ term ∈ terms, term.Leads m sources n) :
    ∃ settled, List.Forall₂ (Settles m sources) terms settled
      ∧ OrderTerm.AllScoped sources settled
      ∧ ∀ scope, m.Clear sources scope → OrderTerm.redirectAll m scope terms = .ok settled := by
  induction terms with
  | nil =>
    refine ⟨[], .nil, ?_, fun _ _ => rfl⟩
    simp only [OrderTerm.AllScoped]
  | cons term rest ih =>
    obtain ⟨settled, settles, visible, redirects⟩ :=
      ih fun other mem => leads other (List.mem_cons_of_mem _ mem)
    cases leads term List.mem_cons_self with
    | column resolves =>
      refine ⟨_, .cons .column settles, ?_, fun scope clear => ?_⟩
      · simp only [OrderTerm.AllScoped, OrderTarget.Scoped]
        exact ⟨resolves.led_visible distinct (List.Subset.refl _), visible⟩
      · simp only [OrderTerm.redirectAll, OrderTarget.redirect,
          Remap.redirect_of_resolves clear resolves, redirects scope clear]
        rfl
    | count resolves counted _ unmoved apart =>
      refine ⟨_, .cons .count settles, ?_, fun scope clear => ?_⟩
      · simp only [OrderTerm.AllScoped, OrderTarget.Scoped]
        exact ⟨wellScoped_relatedCount (resolves.led_visible distinct (List.Subset.refl _)) counted,
          visible⟩
      · simp only [OrderTerm.redirectAll, OrderTarget.redirect,
          redirect_relatedCount clear resolves counted unmoved apart, redirects scope clear]
        rfl

/-- Without moves a criterion stays as it is. -/
theorem eq_of_settles_empty {terms settled : List OrderTerm}
    (settles : List.Forall₂ (Settles Remap.empty sources) terms settled) : settled = terms := by
  induction settles with
  | nil => rfl
  | cons first _ ih =>
    rw [ih]
    cases first with
    | column => rw [Remap.led_empty]
    | count => rw [Remap.led_empty]

/-- A criterion whose references lead to sources keeps doing so. -/
theorem Leads.extends_ {schema : Schema} {start : Source} {p q : Progress} {term : OrderTerm}
    (leads : term.Leads p.draft.remap (p.draft.sources start) p.names.tables)
    (fits : p.Fits schema start) (grown : p.Extends q) :
    term.Leads q.draft.remap (q.draft.sources start) q.names.tables := by
  cases leads with
  | column resolves => exact .column (fits.resolves_extends grown resolves)
  | count resolves counted taken unmoved apart =>
    refine .count (fits.resolves_extends grown resolves) counted (Nat.le_trans taken grown.names)
      ?_ ?_
    · rw [grown.remap _ taken]
      exact unmoved
    · intro source mem same
      rcases grown.mem_sources mem with old | fresh
      · exact apart source old same
      · exact absurd (fresh _ same) (Nat.not_lt.mpr taken)

end Sql.OrderTerm

/-! ### Assembling -/

/-- **A query that keeps the invariant is finished**: every reference is redirected to where it
leads. -/
theorem Draft.assemble_eq {schema : Schema} {start : Source} {p : Progress} {n : Nat}
    (fits : p.Fits schema start) (selectors : List Selector) {filter? : Option Condition}
    (hfilter : Condition.OptionScoped (p.draft.sources start) filter?) {terms : List OrderTerm}
    (leads : ∀ term ∈ terms, term.Leads p.draft.remap (p.draft.sources start) n)
    (limit? : Option Limit) :
    ∃ settled,
      List.Forall₂ (OrderTerm.Settles p.draft.remap (p.draft.sources start)) terms settled
      ∧ OrderTerm.OptionScoped (p.draft.sources start) (Compile.orderOf settled)
      ∧ p.draft.assemble start selectors filter? (Compile.orderOf terms) limit?
        = .ok ⟨p.draft.finishedEntries start selectors, filter?, Compile.orderOf settled, limit?,
          none⟩ := by
  obtain ⟨settled, settles, visible, redirects⟩ := OrderTerm.exists_settled fits.distinct leads
  have order : OrderTerm.OptionScoped (p.draft.sources start) (Compile.orderOf settled) := by
    unfold Compile.orderOf
    split
    · simp only [OrderTerm.OptionScoped]
    · simp only [OrderTerm.OptionScoped]
      exact visible
  refine ⟨settled, settles, order, ?_⟩
  unfold Draft.assemble Select.repair
  split
  · -- Nothing was moved, so nothing is redirected, and nothing would be.
    rename_i unmoved
    have empty : p.draft.remap = Remap.empty := by
      rw [List.isEmpty_iff] at unmoved
      exact congrArg Remap.mk unmoved
    rw [empty] at settles
    rw [OrderTerm.eq_of_settles_empty settles, Draft.finishedEntries_of_unmoved empty]
  · have closed : ∀ source ∈ (p.draft.entries start selectors).map Entry.source,
        source.WellScoped := by
      rw [Draft.map_source_entries]
      exact fits.closed
    have sources := @Entry.redirectSources_of_closed p.draft.remap Scope.empty _ closed
    rw [Draft.map_source_entries] at sources
    have shows : (Scope.empty.declareAll (p.draft.sources start)).Shows
        (p.draft.sources start) := by
      intro source mem a ha
      rw [fits.clear.shown source mem a ha]
      rfl
    -- Conditions were compiled against the final sources, so redirecting changes nothing in them.
    have conditions := Condition.redirectOption_of_scoped p.draft.remap filter? hfilter shows
    have criteria : OrderTerm.redirectOption p.draft.remap
        (Scope.empty.declareAll (p.draft.sources start)) (Compile.orderOf terms)
          = .ok (Compile.orderOf settled) := by
      have same : terms.isEmpty = settled.isEmpty := by
        cases settles <;> rfl
      unfold Compile.orderOf
      rw [same]
      split
      · rfl
      · simp only [OrderTerm.redirectOption, redirects _ fits.clear]
        rfl
    simp only [Select.redirect, sources, fits.redirectJoins_entries, conditions, criteria, bind,
      Except.bind]
    rfl

end ResourceQuery
