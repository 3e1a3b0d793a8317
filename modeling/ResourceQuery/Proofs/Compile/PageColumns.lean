import ResourceQuery.Proofs.Compile.Fetching
import ResourceQuery.Proofs.Compile.FreeNames

/-!
# The columns of a page

A page selects all columns of its table and the columns that the order needs from joined tables.
The latter are renamed where their names are taken, so that the page can be used as a derived
table.

## Main Statements

- `Compile.nodup_sortNames`: the columns for the order get names that are new and different.
- `Compile.PrimaryPage.nodup_outputNames`: the columns of a page have different names.
- `Compile.PrimaryPage.mem_columnSelectors`: a column that the order needs is selected.
-/

namespace ResourceQuery

open Sql (Table Source Select Selector Column TableAlias)

namespace Compile

/-! ### Columns for the order -/

/-- What has the same value as another element of a list without repeated values is that
element. -/
theorem eq_of_nodup_filterMap {α β : Type} {f : α → Option β} {l : List α}
    (distinct : (l.filterMap f).Nodup) {a b : α} {value : β} (ha : a ∈ l) (hb : b ∈ l)
    (hfa : f a = some value) (hfb : f b = some value) : a = b := by
  induction l with
  | nil => cases ha
  | cons head rest ih =>
    have others : (rest.filterMap f).Nodup := by
      cases hhead : f head with
      | none => rwa [List.filterMap_cons_none hhead] at distinct
      | some w =>
        rw [List.filterMap_cons_some hhead] at distinct
        exact (List.nodup_cons.mp distinct).2
    have once : ∀ c ∈ rest, f c = some value → f head ≠ some value := by
      intro c hc hfc hhead
      rw [List.filterMap_cons_some hhead] at distinct
      exact (List.nodup_cons.mp distinct).1 (List.mem_filterMap.mpr ⟨c, hc, hfc⟩)
    rcases List.mem_cons.mp ha with rfl | ha'
    · rcases List.mem_cons.mp hb with rfl | hb'
      · rfl
      · exact absurd hfa (once b hb' hfb)
    · rcases List.mem_cons.mp hb with rfl | hb'
      · exact absurd hfb (once a ha' hfa)
      · exact ih others ha' hb'

/-- The name of a selector with the source it is taken from. -/
def sortName? (entry : TableAlias × Selector) : Option String :=
  entry.2.outputName?

/-- Each column for the order is selected from the source that it belongs to. -/
theorem eq_of_mem_sortSelectors {taken : List String} {columns : List Column}
    {entry : TableAlias × Selector} (mem : entry ∈ sortSelectors taken columns) :
    ∃ c rename?, c ∈ columns ∧ c.alias? = some entry.1 ∧ entry.2 = .column c rename? := by
  fun_induction sortSelectors taken columns with
  | case1 => cases mem
  | case2 taken c rest unnamed ih =>
    obtain ⟨d, rename?, hd, named, hentry⟩ := ih mem
    exact ⟨d, rename?, List.mem_cons_of_mem _ hd, named, hentry⟩
  | case3 taken c rest a named rename? taken' hunique ih =>
    rcases List.mem_cons.mp mem with rfl | mem
    · exact ⟨c, rename?, List.mem_cons_self, named, rfl⟩
    · obtain ⟨d, rename?, hd, named, hentry⟩ := ih mem
      exact ⟨d, rename?, List.mem_cons_of_mem _ hd, named, hentry⟩

/-- Each column for the order that belongs to a source is selected. -/
theorem mem_sortSelectors {taken : List String} {columns : List Column} {c : Column}
    {a : TableAlias} (mem : c ∈ columns) (named : c.alias? = some a) :
    ∃ rename?, (a, .column c rename?) ∈ sortSelectors taken columns := by
  fun_induction sortSelectors taken columns with
  | case1 => cases mem
  | case2 taken d rest unnamed ih =>
    rcases List.mem_cons.mp mem with rfl | mem
    · rw [named] at unnamed
      cases unnamed
    · exact ih mem
  | case3 taken d rest b other rename? taken' hunique ih =>
    rcases List.mem_cons.mp mem with rfl | mem
    · rw [named] at other
      cases other
      exact ⟨rename?, List.mem_cons_self⟩
    · obtain ⟨rename?, hmem⟩ := ih mem
      exact ⟨rename?, List.mem_cons_of_mem _ hmem⟩

/-- The columns for the order get their names one after the other. -/
theorem sortNames_eq (taken : List String) (columns : List Column) :
    (sortSelectors taken columns).filterMap sortName?
      = namesInEffect taken ((columns.filter (fun c => c.alias?.isSome)).map Column.name) := by
  fun_induction sortSelectors taken columns with
  | case1 => rfl
  | case2 taken c rest unnamed ih => simpa [unnamed] using ih
  | case3 taken c rest a named rename? taken' hunique ih =>
    have first : sortName? (a, .column c rename?) = some (nameInEffect taken c.name) := by
      rw [nameInEffect, hunique]
      rfl
    have next : (uniqueName taken c.name).2 = taken' := by rw [hunique]
    rw [List.filterMap_cons_some first, ih, List.filter_cons_of_pos (by rw [named]; rfl),
      List.map_cons, namesInEffect, next]

/-- **The columns for the order get names that are new and different.** -/
theorem nodup_sortNames (taken : List String) (columns : List Column) :
    ((sortSelectors taken columns).filterMap sortName?).Nodup
      ∧ ∀ name ∈ (sortSelectors taken columns).filterMap sortName?, name ∉ taken := by
  rw [sortNames_eq]
  exact nodup_namesInEffect taken _

/-! ### The select list of a page -/

/-- Append selectors to those of their sources, one after the other. -/
def appendAll (entries : List (TableAlias × Selector))
    (selectors : List (TableAlias × List Selector)) : List (TableAlias × List Selector) :=
  entries.foldl (fun listed entry => Draft.appendSelectors entry.1 [entry.2] listed) selectors

/-- What is selected from a source, in a list of sources with their selectors. -/
def listedFor (selectors : List (TableAlias × List Selector)) (a : TableAlias) : List Selector :=
  (selectors.lookup a).getD []

theorem listedFor_appendSelectors (a b : TableAlias) (more : List Selector)
    (selectors : List (TableAlias × List Selector)) :
    listedFor (Draft.appendSelectors a more selectors) b
      = if b = a then listedFor selectors b ++ more else listedFor selectors b := by
  unfold listedFor
  fun_induction Draft.appendSelectors a more selectors with
  | case1 => grind
  | case2 => grind
  | case3 c others rest ne ih => grind

/-- Each source gets the selectors that are taken from it, in order. -/
theorem listedFor_appendAll (entries : List (TableAlias × Selector)) (a : TableAlias)
    (selectors : List (TableAlias × List Selector)) :
    listedFor (appendAll entries selectors) a
      = listedFor selectors a ++ (entries.filter (fun entry => entry.1 = a)).map Prod.snd := by
  induction entries generalizing selectors with
  | nil => simp [appendAll]
  | cons entry rest ih =>
    obtain ⟨b, selector⟩ := entry
    rw [appendAll, List.foldl_cons, ← appendAll, ih, listedFor_appendSelectors]
    by_cases same : a = b
    · simp [same]
    · simp [same, Ne.symm same]

namespace PrimaryPage

/-- The columns that the order needs, with the sources they are taken from. -/
def sortEntries (page : PrimaryPage) : List (TableAlias × Selector) :=
  sortSelectors (page.table.columns.map Column.name) page.draft.sortColumns

/-- The draft of a page in which the columns for the order are selected. -/
def fullDraft (page : PrimaryPage) : Draft :=
  { page.draft with selectors := appendAll page.sortEntries page.draft.selectors }

variable {page : PrimaryPage}

theorem select_eq (page : PrimaryPage) :
    page.select = page.fullDraft.assemble (.table page.table)
      (page.table.columns.map (fun c => .column c none)) page.filter? (orderOf page.terms)
      (some page.limit) := by
  have fold : ∀ (entries : List (TableAlias × Selector)) (d : Draft),
      entries.foldl (fun d s => d.addSelectors s.1 [s.2]) d
        = { d with selectors := appendAll entries d.selectors } := by
    intro entries
    induction entries with
    | nil => exact fun d => rfl
    | cons entry rest ih => exact fun d => ih _
  simp only [PrimaryPage.select, fold]
  rfl

/-- A page from which nothing else is selected yet. -/
theorem selectorsOf_fullDraft (nothing : page.draft.selectors = []) {source : Source}
    {a : TableAlias} (named : source.alias? = some a) :
    page.fullDraft.selectorsOf source
      = (page.sortEntries.filter (fun entry => entry.1 = a)).map Prod.snd := by
  have listed := listedFor_appendAll page.sortEntries a page.draft.selectors
  rw [nothing] at listed
  simp only [Draft.selectorsOf, named, fullDraft, nothing]
  exact listed

/-- The query of a page as it is finished. -/
def finished (page : PrimaryPage) (a : TableAlias) : Select :=
  ⟨page.fullDraft.entries (.table page.table) (page.table.columns.map (fun c => .column c none)),
    page.filter?, orderOf page.terms, some page.limit, some a⟩

theorem selectors_finished (page : PrimaryPage) (a : TableAlias) :
    (page.finished a).selectors
      = page.table.columns.map (fun c => .column c none)
        ++ page.draft.joins.flatMap (fun join => page.fullDraft.selectorsOf join.source) := by
  rw [Select.selectors, finished, Draft.flatMap_selectors_entries]
  rfl

/-- A page selects all columns of its table. -/
theorem mem_columnSelectors_of_table (page : PrimaryPage) (a : TableAlias) {c : Column}
    (mem : c ∈ page.table.columns) : (c, none) ∈ (page.finished a).columnSelectors := by
  rw [Select.columnSelectors, selectors_finished, List.mem_filterMap]
  exact ⟨.column c none, List.mem_append_left _ (List.mem_map_of_mem mem), rfl⟩

/-- **A column that the order needs is selected** from the joined source that it belongs to. -/
theorem mem_columnSelectors (nothing : page.draft.selectors = []) {a b : TableAlias} {c : Column}
    {join : Join} (noted : c ∈ page.draft.sortColumns) (named : c.alias? = some a)
    (joined : join ∈ page.draft.joins) (same : join.source.alias? = some a) :
    ∃ rename?, (c, rename?) ∈ (page.finished b).columnSelectors := by
  obtain ⟨rename?, mem⟩ := @mem_sortSelectors (page.table.columns.map Column.name) _ _ _ noted named
  refine ⟨rename?, ?_⟩
  rw [Select.columnSelectors, selectors_finished, List.mem_filterMap]
  refine ⟨.column c rename?, List.mem_append_right _ ?_, rfl⟩
  refine List.mem_flatMap.mpr ⟨join, joined, ?_⟩
  rw [selectorsOf_fullDraft nothing same]
  exact List.mem_map_of_mem (f := Prod.snd) (List.mem_filter.mpr ⟨mem, by simp⟩)

/-- **The columns of a page have different names.** -/
theorem nodup_outputNames (nothing : page.draft.selectors = [])
    (columns : (page.table.columns.map Column.name).Nodup)
    (aliased : ∀ join ∈ page.draft.joins, ∃ a, join.source.alias? = some a)
    (distinct : (page.draft.joins.map (fun join => join.source.alias?)).Nodup)
    (a : TableAlias) : (page.finished a).outputNames.Nodup := by
  obtain ⟨different, new⟩ := nodup_sortNames (page.table.columns.map Column.name)
    page.draft.sortColumns
  -- What a join contributes is the part of the sort columns that belongs to its source.
  have part : ∀ join ∈ page.draft.joins, ∀ name,
      name ∈ (page.fullDraft.selectorsOf join.source).filterMap Selector.outputName? →
      ∃ entry ∈ page.sortEntries, some entry.1 = join.source.alias?
        ∧ sortName? entry = some name := by
    intro join mem name listed
    obtain ⟨b, hb⟩ := aliased join mem
    rw [selectorsOf_fullDraft nothing hb, List.filterMap_map, List.mem_filterMap] at listed
    obtain ⟨entry, hentry, hname⟩ := listed
    obtain ⟨hentry, same⟩ := List.mem_filter.mp hentry
    refine ⟨entry, hentry, ?_, hname⟩
    rw [hb]
    exact congrArg some (by simpa using same)
  have own : ∀ join ∈ page.draft.joins,
      ((page.fullDraft.selectorsOf join.source).filterMap Selector.outputName?).Nodup := by
    intro join mem
    obtain ⟨b, hb⟩ := aliased join mem
    rw [selectorsOf_fullDraft nothing hb, List.filterMap_map]
    exact different.sublist (List.filter_sublist.filterMap _)
  -- Two joins share no name: it would come from one entry, hence from one source.
  have apart : page.draft.joins.Pairwise (fun i j =>
      List.Disjoint ((page.fullDraft.selectorsOf i.source).filterMap Selector.outputName?)
        ((page.fullDraft.selectorsOf j.source).filterMap Selector.outputName?)) := by
    rw [List.Nodup, List.pairwise_map] at distinct
    refine distinct.imp_of_mem ?_
    intro i j hi hj ne name hname hname'
    obtain ⟨entry, mem, same, named⟩ := part i hi name hname
    obtain ⟨entry', mem', same', named'⟩ := part j hj name hname'
    have one := eq_of_nodup_filterMap different mem mem' named named'
    rw [one] at same
    exact ne (same.symm.trans same')
  have first : (page.table.columns.map (fun c => Selector.column c none)).filterMap
      Selector.outputName? = page.table.columns.map Column.name := by
    rw [List.filterMap_map]
    exact congrFun List.filterMap_eq_map page.table.columns
  rw [Select.outputNames, selectors_finished, List.filterMap_append, first,
    List.filterMap_flatMap, List.nodup_append]
  refine ⟨columns, List.nodup_flatMap.mpr ⟨own, apart⟩, ?_⟩
  intro name taken other listed same
  obtain ⟨join, mem, listed⟩ := List.mem_flatMap.mp listed
  obtain ⟨entry, hentry, -, named⟩ := part join mem other listed
  rw [same] at taken
  exact new other (List.mem_filterMap.mpr ⟨entry, hentry, named⟩) taken

end PrimaryPage

end Compile

end ResourceQuery
