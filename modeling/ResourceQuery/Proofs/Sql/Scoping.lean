import ResourceQuery.Sql.Repair

/-!
# Well-scoped queries

A reference to a column names a source by its alias.  This file says which sources a reference may
name at each place of a query, and that a query whose references all keep to that is left alone by
the redirection of references.

## Main Definitions

- `Source.Exposes`: which columns can be referred to in a source.
- `Column.VisibleIn`: a reference names one of the given sources and a column that it exposes.
- `Select.WellScoped`: every reference of a query, at every depth, names a source in its scope.

## Main Statements

- `Select.redirect_of_wellScoped`: redirection changes nothing in a well-scoped query.
- `Scope.lookup_declareAll`: what is visible after the sources of a query have been declared.
- `ScopeStack.current_enter`, `ScopeStack.pop_enter`: what is visible once a query has been entered,
  and after it has been left.

## Design Notes

The scope of a reference is given by the sources themselves rather than by their aliases, so that
the same definition says which columns may be named.  A derived table is judged with nothing around
it; the query of an existence test or of a number is judged with everything that is visible at the
place where it stands.
-/

namespace ResourceQuery.Sql

/-! ### What can be referred to -/

/-- **A source exposes a column**: a table one of its columns, a derived table a column that it
selects. -/
def Source.Exposes (c : Column) : Source → Prop
  | .table t => c ∈ t.columns
  | .derived s => ∃ selected ∈ s.columnSelectors, c = s.expose selected

/-- A reference names the alias of one of several sources, and a column that this source exposes. -/
def Column.VisibleIn (c : Column) (sources : List Source) : Prop :=
  ∃ source ∈ sources, source.alias?.isSome ∧ c.alias? = source.alias? ∧ source.Exposes c

/-- The name of an item of a select list, if it has one. -/
def Selector.outputName? : Selector → Option String
  | .column c rename? => some (rename?.getD c.name)
  | .rowNumber _ name => some name
  | .one => none
  | .countRows => none

/-- The names of the columns that a query returns. -/
def Select.outputNames (s : Select) : List String :=
  s.selectors.filterMap Selector.outputName?

/-- A query starts from its first source and joins all others. -/
def Entry.StartsFirst : List Entry → Prop
  | [] => False
  | first :: rest => first.join? = none ∧ ∀ entry ∈ rest, entry.join?.isSome

/-- Both sides of a join condition name one of the given sources. -/
def JoinOn.VisibleIn (on : JoinOn) (sources : List Source) : Prop :=
  on.outer.VisibleIn sources ∧ on.inner.VisibleIn sources

/-! ### Scoping at every depth -/

mutual

/-- **Every reference of a query names a source in its scope**: one of the query's own sources, or
one of those around it.  The output columns of derived tables have different names. -/
def Select.WellScoped (around : List Source) : Select → Prop
  | ⟨entries, filter?, order?, _, _⟩ =>
    Entry.StartsFirst entries
      ∧ Entry.AllScoped (entries.map Entry.source ++ around) [] entries
      ∧ Condition.OptionScoped (entries.map Entry.source ++ around) filter?
      ∧ OrderTerm.OptionScoped (entries.map Entry.source ++ around) order?

/-- Select lists name visible sources, and join conditions only the sources before the joined one
and that one itself. -/
def Entry.AllScoped (visible before : List Source) : List Entry → Prop
  | [] => True
  | ⟨source, join?, selectors⟩ :: rest =>
    Source.WellScoped source
      ∧ (∀ on, join? = some on → on.VisibleIn (before ++ [source]))
      ∧ Selector.AllScoped visible selectors
      ∧ Entry.AllScoped visible (before ++ [source]) rest

/-- A derived table refers to nothing outside itself, and selects columns of different names. -/
def Source.WellScoped : Source → Prop
  | .table _ => True
  | .derived s =>
    Select.WellScoped [] s ∧ s.columnSelectors ≠ [] ∧ s.outputNames.Nodup

/-- The items of a select list name visible sources. -/
def Selector.AllScoped (visible : List Source) : List Selector → Prop
  | [] => True
  | selector :: rest => Selector.Scoped visible selector ∧ Selector.AllScoped visible rest

/-- An item of a select list names visible sources. -/
def Selector.Scoped (visible : List Source) : Selector → Prop
  | .column c _ => c.VisibleIn visible
  | .one => True
  | .countRows => True
  | .rowNumber order _ => OrderTerm.AllScoped visible order

/-- A condition that may be absent names visible sources. -/
def Condition.OptionScoped (visible : List Source) : Option Condition → Prop
  | none => True
  | some condition => Condition.Scoped visible condition

/-- A condition names visible sources.  The query of an existence test sees them too. -/
def Condition.Scoped (visible : List Source) : Condition → Prop
  | .comparison left _ right => Operand.Scoped visible left ∧ Operand.Scoped visible right
  | .logical _ terms => Condition.AllScoped visible terms
  | .not term => Condition.Scoped visible term
  | .like c _ _ => c.VisibleIn visible
  | .isIn c _ => c.VisibleIn visible
  | .nonempty select => Select.WellScoped visible select

/-- Several conditions name visible sources. -/
def Condition.AllScoped (visible : List Source) : List Condition → Prop
  | [] => True
  | term :: rest => Condition.Scoped visible term ∧ Condition.AllScoped visible rest

/-- A side of a comparison names visible sources. -/
def Operand.Scoped (visible : List Source) : Operand → Prop
  | .column c => c.VisibleIn visible
  | .parameter _ => True
  | .null => True
  | .count select => Select.WellScoped visible select

/-- An order that may be absent names visible sources. -/
def OrderTerm.OptionScoped (visible : List Source) : Option (List OrderTerm) → Prop
  | none => True
  | some terms => OrderTerm.AllScoped visible terms

/-- The criteria of an order name visible sources. -/
def OrderTerm.AllScoped (visible : List Source) : List OrderTerm → Prop
  | [] => True
  | ⟨target, _⟩ :: rest => OrderTarget.Scoped visible target ∧ OrderTerm.AllScoped visible rest

/-- What rows are ordered by names visible sources. -/
def OrderTarget.Scoped (visible : List Source) : OrderTarget → Prop
  | .column c => c.VisibleIn visible
  | .count select => Select.WellScoped visible select

end

/-! ### Visible sources -/

/-- Every alias of the given sources may be named in a scope. -/
def Scope.Shows (scope : Scope) (sources : List Source) : Prop :=
  ∀ source ∈ sources, ∀ a, source.alias? = some a → (scope.lookup a).isSome

/-- Declare the sources of a query one after the other. -/
def Scope.declareAll (scope : Scope) (sources : List Source) : Scope :=
  sources.foldl Scope.declare scope

theorem Scope.lookup_insertSource (a b : TableAlias) (source : Source)
    (sources : List (TableAlias × Source)) :
    (Scope.insertSource a source sources).lookup b =
      if b = a then some source else sources.lookup b := by
  fun_induction Scope.insertSource a source sources with
  | case1 => grind
  | case2 c other rest hlt => grind
  | case3 => grind
  | case4 c other rest hlt hne ih => grind

/-- A declared source is visible under its alias, and hides no other. -/
theorem Scope.lookup_declare (scope : Scope) (source : Source) (a : TableAlias) :
    (scope.declare source).lookup a =
      if source.alias? = some a then some source else scope.lookup a := by
  unfold Scope.declare
  split
  · rename_i b hb
    simp only [Scope.lookup, Scope.lookup_insertSource, hb, Option.some.injEq]
    grind
  · rename_i hb
    simp [hb]

/-- What no source is called stays as visible as it was. -/
theorem Scope.lookup_declareAll_of_ne {scope : Scope} {sources : List Source} {a : TableAlias}
    (ne : ∀ source ∈ sources, source.alias? ≠ some a) :
    (scope.declareAll sources).lookup a = scope.lookup a := by
  induction sources generalizing scope with
  | nil => rfl
  | cons source rest ih =>
    have step := @ih (scope.declare source)
      (fun other mem => ne other (List.mem_cons_of_mem _ mem))
    rw [Scope.declareAll, List.foldl_cons, ← Scope.declareAll, step, Scope.lookup_declare,
      if_neg (ne source List.mem_cons_self)]

/-- **Sources of different aliases are all found again** once they have been declared. -/
theorem Scope.lookup_declareAll {scope : Scope} {sources : List Source} {source : Source}
    {a : TableAlias} (distinct : (sources.map Source.alias?).Nodup) (mem : source ∈ sources)
    (named : source.alias? = some a) :
    (scope.declareAll sources).lookup a = some source := by
  induction sources generalizing scope with
  | nil => simp at mem
  | cons first rest ih =>
    rw [List.map_cons, List.nodup_cons] at distinct
    rw [Scope.declareAll, List.foldl_cons, ← Scope.declareAll]
    rcases List.mem_cons.mp mem with rfl | mem
    · have ne : ∀ other ∈ rest, other.alias? ≠ some a := fun other hother same =>
        distinct.1 (List.mem_map.mpr ⟨other, hother, same.trans named.symm⟩)
      rw [Scope.lookup_declareAll_of_ne ne, Scope.lookup_declare, if_pos named]
    · exact ih distinct.2 mem

namespace ScopeStack

variable (s : ScopeStack) (sources : List Source)

/-- Enter a query and declare its sources one after the other. -/
def enter : ScopeStack :=
  sources.foldl ScopeStack.declare s.push

/-- Declaring sources changes the innermost scope only. -/
theorem foldl_declare :
    sources.foldl ScopeStack.declare s = { s with current := s.current.declareAll sources } := by
  induction sources generalizing s with
  | nil => rfl
  | cons source rest ih =>
    rw [List.foldl_cons, ih]
    rfl

/-- **A query sees its sources besides what is visible around it.** -/
@[simp] theorem current_enter : (s.enter sources).current = s.current.declareAll sources := by
  rw [enter, foldl_declare]
  rfl

/-- What was visible around a query is visible again when it is left. -/
@[simp] theorem pop_enter : (s.enter sources).pop = s := by
  rw [enter, foldl_declare]
  rfl

end ScopeStack

namespace Scope.Shows

variable {scope : Scope} {sources : List Source}

theorem mono (shows : scope.Shows sources) {fewer : List Source} (sub : fewer ⊆ sources) :
    scope.Shows fewer :=
  fun source mem => shows source (sub mem)

theorem declare (shows : scope.Shows sources) (source : Source) :
    (scope.declare source).Shows (source :: sources) := by
  intro other mem a ha
  rw [Scope.lookup_declare]
  split
  · rfl
  · rename_i hne
    rcases List.mem_cons.mp mem with rfl | mem
    · exact absurd ha hne
    · exact shows other mem a ha

/-- Declared sources are visible, and so is what was visible before. -/
theorem declareAll (shows : scope.Shows sources) (more : List Source) :
    (scope.declareAll more).Shows (more ++ sources) := by
  induction more generalizing scope sources with
  | nil => exact shows
  | cons source rest ih =>
    refine (ih (shows.declare source)).mono ?_
    intro other mem
    simp only [List.cons_append, List.mem_cons, List.mem_append] at mem ⊢
    rcases mem with h | h | h
    · exact .inr (.inl h)
    · exact .inl h
    · exact .inr (.inr h)

end Scope.Shows

/-! ### Redirecting what is visible -/

theorem Column.VisibleIn.mono {c : Column} {sources more : List Source}
    (visible : c.VisibleIn sources) (sub : sources ⊆ more) : c.VisibleIn more := by
  obtain ⟨source, mem, rest⟩ := visible
  exact ⟨source, sub mem, rest⟩

theorem JoinOn.VisibleIn.mono {on : JoinOn} {sources more : List Source}
    (visible : on.VisibleIn sources) (sub : sources ⊆ more) : on.VisibleIn more :=
  ⟨visible.1.mono sub, visible.2.mono sub⟩

namespace Remap

variable (m : Remap) {scope : Scope} {sources : List Source}

/-- A reference to a visible source leads to itself. -/
theorem redirect_of_visible {c : Column} (shows : scope.Shows sources)
    (visible : c.VisibleIn sources) : m.redirect scope c = .ok c := by
  obtain ⟨source, mem, named, same, -⟩ := visible
  obtain ⟨a, ha⟩ := Option.isSome_iff_exists.mp named
  have found := shows source mem a ha
  simp [Remap.redirect, same, ha, found]

theorem redirectJoin_of_visible {join? : Option JoinOn} (shows : scope.Shows sources)
    (visible : ∀ on, join? = some on → on.VisibleIn sources) :
    m.redirectJoin scope join? = .ok join? := by
  cases join? with
  | none => rfl
  | some on =>
    obtain ⟨outer, inner⟩ := visible on rfl
    simp only [redirectJoin, m.redirect_of_visible shows outer, m.redirect_of_visible shows inner]
    rfl

theorem redirectJoins_of_visible (entries : List Entry) (shows : scope.Shows sources)
    (visible : ∀ entry ∈ entries, ∀ on, entry.join? = some on → on.VisibleIn sources) :
    m.redirectJoins scope entries = .ok entries := by
  induction entries with
  | nil => rfl
  | cons entry rest ih =>
    have rest_ok := ih (fun e mem => visible e (List.mem_cons_of_mem _ mem))
    have head_ok := m.redirectJoin_of_visible shows (visible entry List.mem_cons_self)
    obtain ⟨source, join?, selectors⟩ := entry
    simp only [redirectJoins, head_ok, rest_ok]
    rfl

end Remap

/-- The join conditions of the sources of a query name sources of the same query. -/
theorem Entry.AllScoped.join_visible {visible : List Source} {entries : List Entry}
    {before : List Source} (inScope : Entry.AllScoped visible before entries) :
    ∀ entry ∈ entries, ∀ on, entry.join? = some on →
      on.VisibleIn (before ++ entries.map Entry.source) := by
  induction entries generalizing before with
  | nil => simp
  | cons entry rest ih =>
    obtain ⟨source, join?, selectors⟩ := entry
    simp only [Entry.AllScoped] at inScope
    obtain ⟨-, joined, -, others⟩ := inScope
    intro e mem on hon
    rcases List.mem_cons.mp mem with rfl | mem
    · refine (joined on hon).mono ?_
      intro s hs
      simp only [List.mem_append, List.map_cons, List.mem_cons, List.not_mem_nil, or_false] at hs ⊢
      rcases hs with h | h
      · exact .inl h
      · exact .inr (.inl h)
    · simpa using ih others e mem on hon

mutual

/-- **Redirection changes nothing in a well-scoped query**, whatever has been moved, provided that
everything around the query may be named. -/
theorem Select.redirect_of_wellScoped (m : Remap) {scope : Scope} {around : List Source} :
    (s : Select) → s.WellScoped around → scope.Shows around → s.redirect m scope = .ok s
  | ⟨entries, filter?, order?, limit?, alias?⟩, h, shows => by
    simp only [Select.WellScoped] at h
    obtain ⟨-, sources, filter, order⟩ := h
    have inside := shows.declareAll (entries.map Entry.source)
    have joins := m.redirectJoins_of_visible entries inside (fun entry mem on hon =>
      (sources.join_visible entry mem on hon).mono (by simp))
    simp only [Select.redirect, Entry.redirectSources_of_allScoped m entries sources,
      Condition.redirectOption_of_scoped m filter? filter inside,
      OrderTerm.redirectOption_of_scoped m order? order inside, bind, Except.bind, joins]
    rfl

theorem Entry.redirectSources_of_allScoped (m : Remap) {scope : Scope}
    {visible before : List Source} :
    (entries : List Entry) → Entry.AllScoped visible before entries →
      Entry.redirectSources m scope entries
        = .ok (entries, scope.declareAll (entries.map Entry.source))
  | [], _ => rfl
  | ⟨source, join?, selectors⟩ :: rest, h => by
    simp only [Entry.AllScoped] at h
    obtain ⟨first, -, -, others⟩ := h
    simp only [Entry.redirectSources, Source.redirect_of_wellScoped m source first,
      Entry.redirectSources_of_allScoped m rest others, bind, Except.bind]
    rfl

theorem Source.redirect_of_wellScoped (m : Remap) {scope : Scope} :
    (source : Source) → source.WellScoped → source.redirect m scope = .ok source
  | .table _, _ => rfl
  | .derived s, h => by
    simp only [Source.WellScoped] at h
    obtain ⟨inside, columns, -⟩ := h
    have shows : scope.Shows [] := by simp [Scope.Shows]
    simp only [Source.redirect, List.isEmpty_iff, columns, if_false,
      Select.redirect_of_wellScoped m s inside shows]
    rfl

theorem Condition.redirectOption_of_scoped (m : Remap) {scope : Scope} {visible : List Source} :
    (condition? : Option Condition) → Condition.OptionScoped visible condition? →
      scope.Shows visible → Condition.redirectOption m scope condition? = .ok condition?
  | none, _, _ => rfl
  | some condition, h, shows => by
    simp only [Condition.OptionScoped] at h
    simp only [Condition.redirectOption, Condition.redirect_of_scoped m condition h shows]
    rfl

theorem Condition.redirect_of_scoped (m : Remap) {scope : Scope} {visible : List Source} :
    (condition : Condition) → condition.Scoped visible →
      scope.Shows visible → condition.redirect m scope = .ok condition
  | .comparison left op right, h, shows => by
    simp only [Condition.Scoped] at h
    simp only [Condition.redirect, Operand.redirect_of_scoped m left h.1 shows,
      Operand.redirect_of_scoped m right h.2 shows]
    rfl
  | .logical op terms, h, shows => by
    simp only [Condition.Scoped] at h
    simp only [Condition.redirect, Condition.redirectAll_of_allScoped m terms h shows]
    rfl
  | .not term, h, shows => by
    simp only [Condition.Scoped] at h
    simp only [Condition.redirect, Condition.redirect_of_scoped m term h shows]
    rfl
  | .like c text kind, h, shows => by
    simp only [Condition.Scoped] at h
    simp only [Condition.redirect, m.redirect_of_visible shows h]
    rfl
  | .isIn c values, h, shows => by
    simp only [Condition.Scoped] at h
    simp only [Condition.redirect, m.redirect_of_visible shows h]
    rfl
  | .nonempty select, h, shows => by
    simp only [Condition.Scoped] at h
    simp only [Condition.redirect, Select.redirect_of_wellScoped m select h shows]
    rfl

theorem Condition.redirectAll_of_allScoped (m : Remap) {scope : Scope} {visible : List Source} :
    (terms : List Condition) → Condition.AllScoped visible terms →
      scope.Shows visible → Condition.redirectAll m scope terms = .ok terms
  | [], _, _ => rfl
  | term :: rest, h, shows => by
    simp only [Condition.AllScoped] at h
    simp only [Condition.redirectAll, Condition.redirect_of_scoped m term h.1 shows,
      Condition.redirectAll_of_allScoped m rest h.2 shows]
    rfl

theorem Operand.redirect_of_scoped (m : Remap) {scope : Scope} {visible : List Source} :
    (operand : Operand) → operand.Scoped visible →
      scope.Shows visible → operand.redirect m scope = .ok operand
  | .column c, h, shows => by
    simp only [Operand.Scoped] at h
    simp only [Operand.redirect, m.redirect_of_visible shows h]
    rfl
  | .parameter _, _, _ => rfl
  | .null, _, _ => rfl
  | .count select, h, shows => by
    simp only [Operand.Scoped] at h
    simp only [Operand.redirect, Select.redirect_of_wellScoped m select h shows]
    rfl

theorem OrderTerm.redirectOption_of_scoped (m : Remap) {scope : Scope} {visible : List Source} :
    (order? : Option (List OrderTerm)) → OrderTerm.OptionScoped visible order? →
      scope.Shows visible → OrderTerm.redirectOption m scope order? = .ok order?
  | none, _, _ => rfl
  | some terms, h, shows => by
    simp only [OrderTerm.OptionScoped] at h
    simp only [OrderTerm.redirectOption, OrderTerm.redirectAll_of_allScoped m terms h shows]
    rfl

theorem OrderTerm.redirectAll_of_allScoped (m : Remap) {scope : Scope} {visible : List Source} :
    (terms : List OrderTerm) → OrderTerm.AllScoped visible terms →
      scope.Shows visible → OrderTerm.redirectAll m scope terms = .ok terms
  | [], _, _ => rfl
  | ⟨target, descending⟩ :: rest, h, shows => by
    simp only [OrderTerm.AllScoped] at h
    simp only [OrderTerm.redirectAll, OrderTarget.redirect_of_scoped m target h.1 shows,
      OrderTerm.redirectAll_of_allScoped m rest h.2 shows]
    rfl

theorem OrderTarget.redirect_of_scoped (m : Remap) {scope : Scope} {visible : List Source} :
    (target : OrderTarget) → target.Scoped visible →
      scope.Shows visible → target.redirect m scope = .ok target
  | .column c, h, shows => by
    simp only [OrderTarget.Scoped] at h
    simp only [OrderTarget.redirect, m.redirect_of_visible shows h]
    rfl
  | .count select, h, shows => by
    simp only [OrderTarget.Scoped] at h
    simp only [OrderTarget.redirect, Select.redirect_of_wellScoped m select h shows]
    rfl

end

end ResourceQuery.Sql
