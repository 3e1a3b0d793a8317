import ResourceQuery.Proofs.Compile.Tracing
import ResourceQuery.Proofs.Request.LayerTree

/-!
# Every layer is served

The rows of a statement are read column by column, so each layer of a request has to have a source
of its own, whose columns stand together in the order in which they are wanted.  A source that was
joined for a filter or for a sort may serve a layer too, but then no other.

## Main Definitions

- `Entry.Presents`: a source selects what is wanted of a layer.
- `Entry.FollowsFrom`: a source is joined to another along a relationship.
- `Select.Serves`: the sources of a query serve the layers of a tree.
- `Compile.Service`: a layer and the source that serves it.
- `Compile.Roster`: the services of a finished query.

## Main Statements

- `Fetch.Becomes.services`: everything to be followed gets a service.
- `Compile.Roster.path_eq`: no table serves two layers.
- `Compile.Roster.serves`: a query with services serves all layers.
- `Request.compile_serves_layers`: each layer of a request is served by one source.
-/

namespace ResourceQuery

open Sql (Table Source Select Selector Entry Column Condition OrderTerm TableAlias Remap)

/-! ### Sources that serve layers -/

/-- **A source presents a layer**: it selects what is wanted of it, column by column. -/
def Sql.Entry.Presents (schema : Schema) (entry : Entry) (layer : Layer) : Prop :=
  ∃ t names, entry.source.base? = some t
    ∧ Compile.selectedColumns schema t layer.selection? = .ok names
    ∧ List.Forall₂ (Selector.Selects entry.source t) names entry.selectors

/-- **A source is joined to another along a relationship**: the foreign key and the identifier are
equal, one of them in the table of each source. -/
def Sql.Entry.FollowsFrom (schema : Schema) (parent : Entry) (name : String) (entry : Entry) :
    Prop :=
  ∃ t t' on relationship columns, parent.source.base? = some t ∧ entry.source.base? = some t'
    ∧ entry.join? = some on ∧ schema.RelatesBy t.resourceType name relationship columns
    ∧ schema.table relationship.target t'.tableAlias = .ok t'
    ∧ on.outer.alias? = parent.source.alias? ∧ on.outer.ComesFrom t columns.1
    ∧ on.inner.alias? = entry.source.alias? ∧ on.inner.ComesFrom t' columns.2

/-- **The sources of a query serve the layers of a tree**, each of them one layer or none: the first
source serves the layer at the root, and all others are joined along the relationships that lead to
the layers they serve. -/
structure Sql.Select.Serves (schema : Schema) (resourceType : String) (fetch : Fetch) (s : Select)
    (served : List (Entry × Option (Path × Layer))) : Prop where
  entries : s.entries = served.map Prod.fst
  primary : ∃ first rest t, served = (first, some ([], fetch.layer)) :: rest
    ∧ first.join? = none ∧ first.source.base? = some t
    ∧ schema.table resourceType t.tableAlias = .ok t
  once : (served.filterMap Prod.snd).Perm fetch.layers
  presents : ∀ entry path layer, (entry, some (path, layer)) ∈ served →
    entry.Presents schema layer
  follows : ∀ entry path name layer, (entry, some (path ++ [name], layer)) ∈ served →
    ∃ parent above, (parent, some (path, above)) ∈ served
      ∧ parent.FollowsFrom schema name entry
  unserved : ∀ entry, (entry, none) ∈ served → entry.selectors = []

namespace Compile

/-! ### Services -/

/-- A layer that is reached by a path, and the source that serves it: the table that it is made of,
its alias, and what is selected from it. -/
structure Service where
  path : Path
  layer : Layer
  table : Table
  source : Source
  sourceAlias : TableAlias
  columns : List Selector

/-- The layer of a service, with its path. -/
def Service.reached (s : Service) : Path × Layer := (s.path, s.layer)

/-- **A service stands** when the query is finished: its source shows the table and is asked for
what the layer wants. -/
structure Service.Stands (schema : Schema) (start : Source) (last : Progress) (s : Service) :
    Prop where
  placed : s.source ∈ last.draft.sources start
  named : s.source.alias? = some s.sourceAlias
  shows : s.source.Shows s.table
  stored : ∃ info, schema.Stores info s.table
  moved : s.source = .table s.table ∨ last.draft.remap.get? s.table.tableAlias = some s.sourceAlias
  selects : Selects schema s.table s.source s.layer.selection? s.columns

/-- **A service follows from another** along a relationship: its source was joined by the key
columns, and its table was reached by a step. -/
def Service.FollowsFrom (schema : Schema) (last : Progress) (steps : List Step) (parent : Service)
    (s : Service) : Prop :=
  ∃ name key kind outer inner, s.path = parent.path ++ [name]
    ∧ Connects schema parent.table name s.table key outer inner
    ∧ ⟨s.source, ⟨kind, outer, inner⟩⟩ ∈ last.draft.joins
    ∧ ((parent.table.tableAlias, name), s.table.tableAlias) ∈ steps

theorem Service.FollowsFrom.append {schema : Schema} {last : Progress} {steps : List Step}
    {parent s : Service} (h : parent.FollowsFrom schema last steps s) (more : List Step) :
    parent.FollowsFrom schema last (steps ++ more) s := by
  obtain ⟨name, key, kind, outer, inner, path, connects, joined, step⟩ := h
  exact ⟨name, key, kind, outer, inner, path, connects, joined, List.mem_append_left _ step⟩

/-- What services select, in addition to what was selected before. -/
def selectAll (services : List Service) (selectors : List (TableAlias × List Selector)) :
    List (TableAlias × List Selector) :=
  services.foldl (fun listed s => Draft.appendSelectors s.sourceAlias s.columns listed) selectors

theorem selectAll_append (services more : List Service)
    (selectors : List (TableAlias × List Selector)) :
    selectAll (services ++ more) selectors = selectAll more (selectAll services selectors) :=
  List.foldl_append

/-- Each source is asked for what its services select. -/
theorem listedFor_selectAll (services : List Service) (a : TableAlias)
    (selectors : List (TableAlias × List Selector)) :
    listedFor (selectAll services selectors) a
      = listedFor selectors a
        ++ (services.filter (fun s => s.sourceAlias = a)).flatMap Service.columns := by
  induction services generalizing selectors with
  | nil => simp [selectAll]
  | cons s rest ih =>
    show listedFor (selectAll rest _) a = _
    rw [ih, listedFor_appendSelectors, List.filter_cons]
    by_cases same : s.sourceAlias = a
    · simp [same]
    · simp [same, Ne.symm same]

section Joined

variable {schema : Schema} {start : Source} {p q last : Progress} {source target : Table}
  {name : String} {provider : Source}

/-- **Joining a relationship is a step**, whether it is filtered or not. -/
theorem RelatedAt.traces {filter? : Option Filter}
    (h : RelatedAt schema p source name filter? target provider q) {root : TableAlias}
    {steps : List Step} (traces : p.Traces root steps) :
    ∃ more, q.Traces root (steps ++ more)
      ∧ ((source.tableAlias, name), target.tableAlias) ∈ steps ++ more := by
  cases filter? with
  | none => exact h.1.traces traces
  | some filter =>
    obtain ⟨derived, ⟨key, outer, inner, condition?, inside, -, fresh, below, -, rfl⟩, -⟩ := h
    have names := (Filter.OptionBecomes.quiet _ below).names
    refine ⟨[((source.tableAlias, name), target.tableAlias)], ?_,
      List.mem_append_right _ List.mem_cons_self⟩
    refine traces.snoc ?_ ?_ fun a name t found => .inl found
    · rw [fresh]
      exact Nat.lt_succ_self _
    · rw [fresh]
      exact Nat.le_succ_of_le names

theorem RelatedAt.selectors_eq {filter? : Option Filter}
    (h : RelatedAt schema p source name filter? target provider q) :
    q.draft.selectors = p.draft.selectors := by
  cases filter? with
  | none => exact h.1.quiet.selectors
  | some filter =>
    obtain ⟨derived, ⟨key, outer, inner, condition?, inside, -, -, -, -, rfl⟩, -⟩ := h
    rfl

/-- **A layer that was joined has a service.** -/
theorem LayerAt.service {layer : Layer} {terms : List OrderTerm} {parent : Service}
    (h : LayerAt schema p parent.table name layer target terms q) (fits : p.Fits schema start)
    (known : p.draft.Knows schema start parent.table) (grown : q.Extends last)
    {root : TableAlias} {steps : List Step} (traces : p.Traces root steps) :
    ∃ (s : Service) (more : List Step), s.reached = (parent.path ++ [name], layer)
      ∧ s.table = target ∧ s.Stands schema start last ∧ q.Traces root (steps ++ more)
      ∧ parent.FollowsFrom schema last (steps ++ more) s
      ∧ q.draft.selectors = selectAll [s] p.draft.selectors := by
  obtain ⟨relationship, provider, a, middle, columns, own, id, -, related, named, selects, orders,
    -, -⟩ := h
  obtain ⟨-, -, reached, mem⟩ := related.fits fits known
  have later := (Progress.Extends.addSelectors middle a columns).trans
    (orders.quiet.toExtends.trans grown)
  obtain ⟨shows, moved, key, kind, outer, inner, connects, joined⟩ :=
    related.shows fits known named later
  obtain ⟨more, traces', step⟩ := related.traces traces
  have selected : Progress.Traces root
      ⟨middle.names, middle.draft.addSelectors a columns⟩ (steps ++ more) :=
    traces'.of_joined (Nat.le_refl _) rfl
  obtain ⟨further, traces''⟩ := orders.keepsTrace root _ selected
  rw [List.append_assoc] at traces''
  refine ⟨⟨parent.path ++ [name], layer, target, provider, a, columns⟩, more ++ further, rfl, rfl,
    ⟨later.sources start mem, named, shows, reached.stored, moved, selects⟩, traces'', ?_, ?_⟩
  · refine ⟨name, key, kind, outer, inner, rfl, connects, joined, ?_⟩
    rw [← List.append_assoc]
    exact List.mem_append_left _ step
  · rw [orders.quiet.selectors]
    show Draft.appendSelectors a columns middle.draft.selectors = _
    rw [related.selectors_eq]
    rfl

end Joined

/-- **Services for layers**, all of which follow from each other or from a service that was there
before. -/
structure Served (schema : Schema) (start : Source) (last : Progress) (parent : Service)
    (p q : Progress) (root : TableAlias) (steps : List Step) (services : List Service)
    (layers : List (Path × Layer)) : Prop where
  traces : q.Traces root steps
  reached : services.map Service.reached = layers
  selectors : q.draft.selectors = selectAll services p.draft.selectors
  stands : ∀ s ∈ services, s.Stands schema start last
  follows : ∀ s ∈ services, ∃ above ∈ parent :: services, above.FollowsFrom schema last steps s

end Compile

/-! ### Trees have services -/

namespace Fetch

open Compile (Service Served Step)

variable {schema : Schema} {start : Source} {last : Progress}

mutual

/-- **Everything to be followed gets a service.** -/
theorem Becomes.services {parent : Service} {p q : Progress} {terms : List OrderTerm}
    {root : TableAlias} {steps : List Step} : (fetch : Fetch) →
    fetch.Becomes schema parent.table p terms q → p.Fits schema start →
    p.draft.Knows schema start parent.table → q.Extends last → p.Traces root steps →
    ∃ services more, Served schema start last parent p q root (steps ++ more) services
      (allLayersFrom parent.path fetch.relationships)
  | mk _ relationships, h, fits, known, grown, traces => by
    simp only [Becomes] at h
    exact AllBecome.services relationships h fits known grown traces

theorem AllBecome.services {parent : Service} {p q : Progress} {terms : List OrderTerm}
    {root : TableAlias} {steps : List Step} : (relationships : List (String × Fetch)) →
    AllBecome schema parent.table relationships p terms q → p.Fits schema start →
    p.draft.Knows schema start parent.table → q.Extends last → p.Traces root steps →
    ∃ services more, Served schema start last parent p q root (steps ++ more) services
      (allLayersFrom parent.path relationships)
  | [], h, _, _, _, traces => by
    simp only [AllBecome] at h
    rw [h.2]
    refine ⟨[], [], ?_, rfl, rfl, by simp, by simp⟩
    rw [List.append_nil]
    exact traces
  | (name, fetch) :: rest, h, fits, known, grown, traces => by
    simp only [AllBecome] at h
    obtain ⟨target, own, below, after, r, t, layer, inside, others, -⟩ := h
    obtain ⟨joining, joined, reached, -⟩ := layer.grows fits known
    obtain ⟨following, followed, -⟩ := Becomes.grows fetch inside joined reached
    have back := fits.knows_extends (joining.trans following) known
    have finishing := (AllBecome.grows rest others followed back).1.trans grown
    -- The layer itself, what is followed from it, and the other relationships.
    obtain ⟨s, more, at_, rfl, stands, traces, first, selected⟩ :=
      layer.service fits known (following.trans finishing) traces
    obtain ⟨services, more', inner⟩ :=
      Becomes.services fetch inside joined reached finishing traces
    obtain ⟨services', more'', outer⟩ :=
      AllBecome.services rest others followed back grown inner.traces
    rw [List.append_assoc, List.append_assoc] at outer
    have path : s.path = parent.path ++ [name] := congrArg Prod.fst at_
    refine ⟨(s :: services) ++ services', more ++ (more' ++ more''), outer.traces, ?_, ?_, ?_, ?_⟩
    · rw [allLayersFrom, layersFrom_eq, List.map_append, List.map_cons, at_, inner.reached,
        outer.reached, path]
    · rw [outer.selectors, inner.selectors, selected, Compile.selectAll_append]
      rfl
    · refine List.forall_mem_append.mpr ⟨List.forall_mem_cons.mpr ⟨stands, inner.stands⟩,
        outer.stands⟩
    · have all : steps ++ (more ++ (more' ++ more'')) = steps ++ more ++ more' ++ more'' := by
        simp only [List.append_assoc]
      intro s' mem
      rw [all] at outer ⊢
      rcases List.mem_append.mp mem with mem | mem
      · rcases List.mem_cons.mp mem with rfl | mem
        · exact ⟨parent, List.mem_cons_self, (first.append more').append more''⟩
        · obtain ⟨above, listed, follows⟩ := inner.follows s' mem
          exact ⟨above, List.mem_cons_of_mem _ (List.mem_append_left _ listed),
            follows.append more''⟩
      · obtain ⟨above, listed, follows⟩ := outer.follows s' mem
        refine ⟨above, ?_, follows⟩
        rcases List.mem_cons.mp listed with rfl | listed
        · exact List.mem_cons_self
        · exact List.mem_cons_of_mem _ (List.mem_append_right _ listed)

end

end Fetch

/-! ### The services of a query -/

/-- An element whose value no other has is the only one with that value. -/
theorem filter_eq_singleton_of_nodup {α β : Type} [DecidableEq β] {f : α → β} {l : List α}
    (distinct : (l.map f).Nodup) {x : α} (mem : x ∈ l) : l.filter (fun y => f y = f x) = [x] := by
  induction l with
  | nil => cases mem
  | cons y rest ih =>
    rw [List.map_cons, List.nodup_cons] at distinct
    rcases List.mem_cons.mp mem with rfl | mem
    · have others : rest.filter (fun y => f y = f x) = [] := by
        refine List.filter_eq_nil_iff.mpr fun y listed same => distinct.1 ?_
        rw [← of_decide_eq_true same]
        exact List.mem_map_of_mem listed
      rw [List.filter_cons, if_pos (by simp), others]
    · have other : f y ≠ f x := fun same => distinct.1 (same ▸ List.mem_map_of_mem mem)
      rw [List.filter_cons, if_neg (by simpa using other), ih distinct.2 mem]

namespace Compile

/-- **The services of a finished query**, one for each layer of a tree: the layer at the root has the
source that the query starts from, and all other services follow from services. -/
structure Roster (schema : Schema) (start : Source) (last : Progress) (fetch : Fetch)
    (primary : Service) (services : List Service) : Prop where
  fits : last.Fits schema start
  starts : primary.source = start
  reached : (primary :: services).map Service.reached = fetch.layers
  distinct : (fetch.layers.map Prod.fst).Nodup
  stands : ∀ s ∈ primary :: services, s.Stands schema start last
  selectors : last.draft.selectors = selectAll services []
  follows : ∃ steps, last.Traces primary.table.tableAlias steps
    ∧ ∀ s ∈ services, ∃ above ∈ primary :: services, above.FollowsFrom schema last steps s

/-- The service with an alias. -/
def serviceOf? (services : List Service) (alias? : Option TableAlias) : Option Service :=
  services.find? (fun s => alias? = some s.sourceAlias)

/-- **A source with the layer that it serves.** -/
def serve (services : List Service) (entry : Entry) : Entry × Option (Path × Layer) :=
  (entry, (serviceOf? services entry.source.alias?).map Service.reached)

namespace Roster

variable {schema : Schema} {start : Source} {last : Progress} {fetch : Fetch} {primary : Service}
  {services : List Service} {s s' : Service}

/-- **No table serves two layers**: it was reached by one step, from a table that serves one
layer. -/
theorem path_eq (roster : Roster schema start last fetch primary services)
    (mem : s ∈ primary :: services) (mem' : s' ∈ primary :: services)
    (same : s.table.tableAlias = s'.table.tableAlias) : s.path = s'.path := by
  obtain ⟨steps, traces, follows⟩ := roster.follows
  -- The induction is on the path, whose last step is the same for both.
  induction length : s.path.length using Nat.strongRecOn generalizing s s' with
  | ind n ih =>
    subst length
    rcases List.mem_cons.mp mem with rfl | mem
    · rcases List.mem_cons.mp mem' with rfl | mem'
      · rfl
      · obtain ⟨above, -, _, _, _, _, _, -, -, -, step⟩ := follows s' mem'
        exact absurd same.symm (traces.ne_root step)
    · obtain ⟨above, listed, name, _, _, _, _, path, -, -, step⟩ := follows s mem
      rcases List.mem_cons.mp mem' with rfl | mem'
      · exact absurd same (traces.ne_root step)
      · obtain ⟨above', listed', name', _, _, _, _, path', -, -, step'⟩ := follows s' mem'
        rw [same] at step
        obtain ⟨before, rfl⟩ := Prod.mk.inj (traces.unique step step')
        have shorter : above.path.length < s.path.length := by simp [path]
        rw [path, path', ih _ shorter listed listed' before rfl]

theorem eq_of_path (roster : Roster schema start last fetch primary services)
    (mem : s ∈ primary :: services) (mem' : s' ∈ primary :: services) (same : s.path = s'.path) :
    s = s' := by
  have distinct := roster.distinct
  rw [← roster.reached, List.map_map] at distinct
  exact List.inj_on_of_nodup_map distinct mem mem' same

/-- **No source serves two layers.** -/
theorem eq_of_alias (roster : Roster schema start last fetch primary services)
    (mem : s ∈ primary :: services) (mem' : s' ∈ primary :: services)
    (same : s.sourceAlias = s'.sourceAlias) : s = s' := by
  have stands := roster.stands s mem
  have stands' := roster.stands s' mem'
  have source : s.source = s'.source := by
    refine roster.fits.source_unique stands.placed stands'.placed ?_
    rw [stands.named, stands'.named, same]
  have table : s.table = s'.table := by
    have base := stands.shows.base
    rw [source, stands'.shows.base] at base
    exact (Option.some.inj base).symm
  exact roster.eq_of_path mem mem' (roster.path_eq mem mem' (congrArg Table.tableAlias table))

theorem nodup_aliases (roster : Roster schema start last fetch primary services) :
    ((primary :: services).map Service.sourceAlias).Nodup := by
  refine List.Nodup.map_on (fun s mem s' mem' same => roster.eq_of_alias mem mem' same) ?_
  have distinct := roster.distinct
  rw [← roster.reached] at distinct
  exact (List.Nodup.of_map _ distinct).of_map

/-- A service is found by its alias. -/
theorem serviceOf?_eq_some (roster : Roster schema start last fetch primary services)
    {alias? : Option TableAlias} :
    serviceOf? (primary :: services) alias? = some s
      ↔ s ∈ primary :: services ∧ alias? = some s.sourceAlias := by
  constructor
  · intro found
    have named := List.find?_some found
    exact ⟨List.mem_of_find?_eq_some found, of_decide_eq_true named⟩
  · rintro ⟨mem, rfl⟩
    have isSome : (serviceOf? (primary :: services) (some s.sourceAlias)).isSome := by
      rw [serviceOf?, List.find?_isSome]
      exact ⟨s, mem, by simp⟩
    obtain ⟨s', found⟩ := Option.isSome_iff_exists.mp isSome
    have named := List.find?_some found
    have same := Option.some.inj (of_decide_eq_true named)
    rw [found, roster.eq_of_alias mem (List.mem_of_find?_eq_some found) same]

/-- A joined source is asked for what the services with its alias select. -/
theorem selectorsOf_eq (roster : Roster schema start last fetch primary services) {source : Source}
    {a : TableAlias} (named : source.alias? = some a) :
    last.draft.selectorsOf source
      = (services.filter (fun s => s.sourceAlias = a)).flatMap Service.columns := by
  have listed : last.draft.selectorsOf source = listedFor last.draft.selectors a := by
    rw [Draft.selectorsOf, named]
    rfl
  rw [listed, roster.selectors, listedFor_selectAll]
  rfl

/-- Joined sources do not have the alias of the first source. -/
theorem alias_ne_primary (roster : Roster schema start last fetch primary services) {join : Join}
    (mem : join ∈ last.draft.joins) : join.source.alias? ≠ some primary.sourceAlias := by
  have distinct := roster.fits.distinct
  rw [Draft.sources, List.map_cons, List.nodup_cons] at distinct
  intro same
  have first := (roster.stands primary List.mem_cons_self).named
  rw [roster.starts] at first
  rw [first, ← same] at distinct
  exact distinct.1 (List.mem_map_of_mem (List.mem_map_of_mem mem))

/-- **A source that serves a layer selects what the service asks for**, and nothing else. -/
theorem entry_eq (roster : Roster schema start last fetch primary services)
    (mem : s ∈ primary :: services) {entry : Entry}
    (listed : entry ∈ last.draft.finishedEntries start primary.columns)
    (named : entry.source.alias? = some s.sourceAlias) :
    entry.source = s.source ∧ entry.selectors = s.columns := by
  have stands := roster.stands s mem
  have placed : entry.source ∈ last.draft.sources start := by
    rw [← Draft.map_source_finishedEntries last.draft start primary.columns]
    exact List.mem_map_of_mem listed
  refine ⟨roster.fits.source_unique placed stands.placed (named.trans stands.named.symm), ?_⟩
  rcases List.mem_cons.mp listed with rfl | listed
  · have first := (roster.stands primary List.mem_cons_self).named
    rw [roster.starts, named] at first
    rw [roster.eq_of_alias mem List.mem_cons_self (Option.some.inj first)]
  · obtain ⟨join, joined, rfl⟩ := List.mem_map.mp listed
    rcases List.mem_cons.mp mem with rfl | mem
    · exact absurd named (roster.alias_ne_primary joined)
    · have distinct := (List.nodup_cons.mp roster.nodup_aliases).2
      show last.draft.selectorsOf join.source = s.columns
      rw [roster.selectorsOf_eq named, filter_eq_singleton_of_nodup distinct mem,
        List.flatMap_singleton]

/-- **A source that serves no layer is there for a filter or a sort**: nothing is selected from
it. -/
theorem selectors_eq_nil (roster : Roster schema start last fetch primary services) {entry : Entry}
    (listed : entry ∈ last.draft.finishedEntries start primary.columns)
    (none_ : serviceOf? (primary :: services) entry.source.alias? = none) :
    entry.selectors = [] := by
  have other := List.find?_eq_none.mp none_
  rcases List.mem_cons.mp listed with rfl | listed
  · have first := (roster.stands primary List.mem_cons_self).named
    rw [roster.starts] at first
    exact absurd (decide_eq_true first) (other primary List.mem_cons_self)
  · obtain ⟨join, joined, rfl⟩ := List.mem_map.mp listed
    obtain ⟨a, named, -⟩ := roster.fits.aliased join.source
      (List.mem_cons_of_mem _ (List.mem_map_of_mem joined))
    have unserved : services.filter (fun s => s.sourceAlias = a) = [] := by
      refine List.filter_eq_nil_iff.mpr fun s mem same => other s (List.mem_cons_of_mem _ mem) ?_
      rw [of_decide_eq_true same]
      exact decide_eq_true named
    show last.draft.selectorsOf join.source = []
    rw [roster.selectorsOf_eq named, unserved]
    rfl

/-- A source presents the layer that it serves. -/
theorem presents (roster : Roster schema start last fetch primary services)
    (mem : s ∈ primary :: services) {entry : Entry}
    (listed : entry ∈ last.draft.finishedEntries start primary.columns)
    (named : entry.source.alias? = some s.sourceAlias) : entry.Presents schema s.layer := by
  have stands := roster.stands s mem
  obtain ⟨source, selectors⟩ := roster.entry_eq mem listed named
  obtain ⟨names, wanted, selected⟩ := stands.selects
  have stored := selectedColumns_spec schema s.table s.layer.selection?
  rw [wanted] at stored
  refine ⟨s.table, names, ?_, wanted, ?_⟩
  · rw [source]
    exact stands.shows.base
  · rw [source, selectors]
    exact stands.shows.forall₂_selectors stored selected

/-- The source of a service is one of the query. -/
theorem exists_entry (roster : Roster schema start last fetch primary services)
    (mem : s ∈ primary :: services) :
    ∃ entry ∈ last.draft.finishedEntries start primary.columns, entry.source = s.source := by
  have placed := (roster.stands s mem).placed
  rw [← Draft.map_source_finishedEntries last.draft start primary.columns] at placed
  exact List.mem_map.mp placed

/-- A source that serves a layer was joined along the relationship that leads there. -/
theorem followsFrom (roster : Roster schema start last fetch primary services)
    {steps : List Step} {above : Service} {path : Path} {name : String} {parent entry : Entry}
    (mem : s ∈ services) (mem' : above ∈ primary :: services)
    (follows : above.FollowsFrom schema last steps s) (reached : s.path = path ++ [name])
    (listed : entry ∈ last.draft.finishedEntries start primary.columns)
    (source : entry.source = s.source) (source' : parent.source = above.source) :
    above.path = path ∧ parent.FollowsFrom schema name entry := by
  obtain ⟨name', key, kind, outer, inner, reached', connects, joined, -⟩ := follows
  obtain ⟨rfl, last_⟩ := List.append_inj' (reached'.symm.trans reached) rfl
  obtain rfl := List.head_eq_of_cons_eq last_
  refine ⟨rfl, ?_⟩
  have stands := roster.stands s (List.mem_cons_of_mem _ mem)
  have stands' := roster.stands above mem'
  -- The source was joined once, by the key columns.
  obtain ⟨join, hjoin, rfl⟩ : ∃ join ∈ last.draft.joins, (⟨join.source,
      some (last.draft.remap.ledJoin (last.draft.sources start) join.on),
      last.draft.selectorsOf join.source⟩ : Entry) = entry := by
    rcases List.mem_cons.mp listed with rfl | listed
    · refine absurd ?_ (roster.alias_ne_primary joined)
      rw [← source, ← roster.starts]
      exact (roster.stands primary List.mem_cons_self).named
    · exact List.mem_map.mp listed
  have distinct := roster.fits.distinct
  rw [Draft.sources, List.map_cons, List.nodup_cons, List.map_map] at distinct
  obtain rfl : join = ⟨s.source, ⟨kind, outer, inner⟩⟩ :=
    List.inj_on_of_nodup_map distinct.2 hjoin joined (congrArg Source.alias? source)
  obtain ⟨relationship, related, htable⟩ := connects.related stands'.stored
  obtain ⟨houter, hinner⟩ := connects.mem_columns stands'.stored
  obtain ⟨outside, -, fromParent⟩ := roster.fits.led_of_shows stands'.placed stands'.shows
    stands'.named stands'.moved houter
  obtain ⟨inside, -, fromOwn⟩ := roster.fits.led_of_shows stands.placed stands.shows stands.named
    stands.moved hinner
  refine ⟨above.table, s.table, _, relationship, _, ?_, stands.shows.base, rfl, related, htable, ?_,
    fromParent, inside.trans stands.named.symm, fromOwn⟩
  · rw [source']
    exact stands'.shows.base
  · rw [source', stands'.named]
    exact outside

/-- **Each layer is served by one source of the query.** -/
theorem perm_layers (roster : Roster schema start last fetch primary services) :
    (((last.draft.finishedEntries start primary.columns).map
      (serve (primary :: services))).filterMap Prod.snd).Perm fetch.layers := by
  have aliases : (last.draft.finishedEntries start primary.columns).map
      (fun entry => entry.source.alias?) = (last.draft.sources start).map Source.alias? := by
    rw [← Draft.map_source_finishedEntries last.draft start primary.columns, List.map_map]
    rfl
  have labels : ((last.draft.finishedEntries start primary.columns).map
      (serve (primary :: services))).filterMap Prod.snd
      = (((last.draft.sources start).map Source.alias?).filterMap
        (serviceOf? (primary :: services))).map Service.reached := by
    rw [← aliases, List.filterMap_map, List.filterMap_map, List.map_filterMap]
    rfl
  rw [labels, ← roster.reached]
  refine List.Perm.map _ ((List.perm_ext_iff_of_nodup ?_ ?_).mpr fun s => ?_)
  · refine List.Nodup.filterMap (fun alias? alias?' s found found' => ?_) roster.fits.distinct
    rw [(roster.serviceOf?_eq_some.mp found).2, (roster.serviceOf?_eq_some.mp found').2]
  · exact List.Nodup.of_map _ roster.nodup_aliases
  · rw [List.mem_filterMap]
    constructor
    · rintro ⟨alias?, -, found⟩
      exact (roster.serviceOf?_eq_some.mp found).1
    · intro mem
      have stands := roster.stands s mem
      exact ⟨s.source.alias?, List.mem_map_of_mem stands.placed,
        roster.serviceOf?_eq_some.mpr ⟨mem, stands.named⟩⟩

/-- A source that serves a layer has the alias of a service for it. -/
theorem of_mem_serve (roster : Roster schema start last fetch primary services)
    {entries : List Entry} {entry : Entry} {reached : Path × Layer}
    (mem : (entry, some reached) ∈ entries.map (serve (primary :: services))) :
    entry ∈ entries ∧ ∃ s ∈ primary :: services, s.reached = reached
      ∧ entry.source.alias? = some s.sourceAlias := by
  obtain ⟨_, listed, same⟩ := List.mem_map.mp mem
  obtain ⟨rfl, label⟩ := Prod.mk.inj same
  obtain ⟨s, found, rfl⟩ := Option.map_eq_some_iff.mp label
  obtain ⟨among, named⟩ := roster.serviceOf?_eq_some.mp found
  exact ⟨listed, s, among, rfl, named⟩

/-- The source of a service serves its layer. -/
theorem mem_serve (roster : Roster schema start last fetch primary services)
    {entries : List Entry} {entry : Entry} (mem : s ∈ primary :: services)
    (listed : entry ∈ entries) (source : entry.source = s.source) :
    (entry, some s.reached) ∈ entries.map (serve (primary :: services)) := by
  refine List.mem_map.mpr ⟨entry, listed, ?_⟩
  have named := (roster.stands s mem).named
  rw [serve, source, roster.serviceOf?_eq_some.mpr ⟨mem, named⟩]
  rfl

theorem reached_primary (roster : Roster schema start last fetch primary services) :
    primary.reached = ([], fetch.layer) := by
  have reached := roster.reached
  rw [Fetch.layers, Fetch.layersFrom_eq, List.map_cons] at reached
  exact (List.cons.inj reached).1

/-- **A finished query with services serves all layers.** -/
theorem serves (roster : Roster schema start last fetch primary services) {select : Select}
    {resourceType : String}
    (entries : select.entries = last.draft.finishedEntries start primary.columns)
    (stored : schema.table resourceType primary.table.tableAlias = .ok primary.table) :
    select.Serves schema resourceType fetch (select.entries.map (serve (primary :: services))) := by
  have first := roster.stands primary List.mem_cons_self
  refine ⟨?_, ?_, ?_, ?_, ?_, ?_⟩
  · rw [List.map_map]
    exact (List.map_id _).symm
  · have found : serviceOf? (primary :: services) start.alias? = some primary := by
      rw [← roster.starts]
      exact roster.serviceOf?_eq_some.mpr ⟨List.mem_cons_self, first.named⟩
    have base : start.base? = some primary.table := by
      rw [← roster.starts]
      exact first.shows.base
    rw [entries, Draft.finishedEntries, List.map_cons, serve, found, Option.map_some,
      roster.reached_primary]
    exact ⟨_, _, primary.table, rfl, rfl, base, stored⟩
  · rw [entries]
    exact roster.perm_layers
  · intro entry path layer mem
    obtain ⟨listed, s, among, reached, named⟩ := roster.of_mem_serve mem
    obtain rfl : s.layer = layer := congrArg Prod.snd reached
    rw [entries] at listed
    exact roster.presents among listed named
  · intro entry path name layer mem
    obtain ⟨listed, s, among, reached, named⟩ := roster.of_mem_serve mem
    have path_ : s.path = path ++ [name] := congrArg Prod.fst reached
    have own : primary.path = [] := congrArg Prod.fst roster.reached_primary
    rcases List.mem_cons.mp among with rfl | served
    · rw [own] at path_
      exact absurd path_.symm (by simp)
    obtain ⟨steps, -, follows⟩ := roster.follows
    obtain ⟨above, among', follows⟩ := follows s served
    obtain ⟨parent, listed', source'⟩ := roster.exists_entry among'
    rw [entries] at listed ⊢
    have source := (roster.entry_eq among listed named).1
    obtain ⟨rfl, joins⟩ := roster.followsFrom served among' follows path_ listed source source'
    exact ⟨parent, above.layer, roster.mem_serve among' listed' source', joins⟩
  · intro entry mem
    obtain ⟨_, listed, same⟩ := List.mem_map.mp mem
    obtain ⟨rfl, label⟩ := Prod.mk.inj same
    rw [entries] at listed
    exact roster.selectors_eq_nil listed (Option.map_eq_none_iff.mp label)

end Roster

/-! ### Pages -/

section Pages

variable {schema : Schema} {start : Source} {p last : Progress} {fetch : Fetch}
  {below : List OrderTerm}

/-- **Everything to be followed from the first source of a query gives services for all layers.** -/
theorem exists_roster (primary : Service) {steps : List Step}
    (follows : fetch.Becomes schema primary.table p below last) (fits : p.Fits schema start)
    (known : p.draft.Knows schema start primary.table)
    (traces : p.Traces primary.table.tableAlias steps) (unselected : p.draft.selectors = [])
    (starts : primary.source = start) (stands : primary.Stands schema start last)
    (own : primary.reached = ([], fetch.layer)) (distinct : fetch.Distinct) :
    ∃ services, Roster schema start last fetch primary services := by
  obtain ⟨-, finished, -⟩ := Fetch.Becomes.grows fetch follows fits known
  obtain ⟨services, more, served⟩ :=
    Fetch.Becomes.services fetch follows fits known (.refl last) traces
  have path : primary.path = [] := congrArg Prod.fst own
  refine ⟨services, finished, starts, ?_, Fetch.nodup_layersFrom fetch distinct,
    List.forall_mem_cons.mpr ⟨stands, served.stands⟩, ?_, steps ++ more, served.traces,
    served.follows⟩
  · rw [List.map_cons, own, served.reached, path, Fetch.layers, Fetch.layersFrom_eq]
  · rw [served.selectors, unselected]

/-- **The query around a page serves all layers.** -/
theorem PushedDown.serves {page : PrimaryPage} {names : Names} {sort : List SortElement}
    {select : Select} {resourceType : String}
    (h : PushedDown schema page names fetch sort select) (stands : page.Stands schema names)
    (stored : schema.table resourceType page.table.tableAlias = .ok page.table)
    (distinct : fetch.Distinct) : ∃ served, select.Serves schema resourceType fetch served := by
  obtain ⟨parameters, outer, columns, below, middle, last, settled, orders, selects, follows, -,
    hselect⟩ := h
  obtain ⟨fits, known⟩ := orders.sorted_fits stands
  obtain ⟨grown, -, -⟩ := Fetch.Becomes.grows fetch follows fits known
  obtain ⟨m, hm, get⟩ := page.outerDraft_eq ⟨names.tables + 1⟩
  -- The table of the page was moved into the derived table, and nothing was joined to that.
  have moved : (page.outerDraft ⟨names.tables + 1⟩).remap.get? page.table.tableAlias
      = some ⟨names.tables + 1⟩ := by
    rw [hm]
    simp only [get, List.mem_cons_self, if_true]
  have le := ((stands.outer_fits parameters).moved _ _ moved).1
  obtain ⟨more, traces⟩ := orders.keepsTrace page.table.tableAlias [] (.start le (by rw [hm]; rfl))
  have unselected : middle.draft.selectors = [] := by
    rw [orders.quiet.selectors]
    show (page.outerDraft ⟨names.tables + 1⟩).selectors = []
    rw [hm]
    rfl
  let primary : Service := ⟨[], fetch.layer, page.table,
    .derived (page.finished ⟨names.tables + 1⟩), ⟨names.tables + 1⟩, columns⟩
  have service : primary.Stands schema (.derived (page.finished ⟨names.tables + 1⟩)) last := by
    refine ⟨List.mem_cons_self, rfl, page.shows_finished _, stands.stored, .inr ?_, selects⟩
    rw [(orders.quiet.toExtends.trans grown).remap _ le]
    exact moved
  obtain ⟨services, roster⟩ :=
    exists_roster primary follows fits known traces unselected rfl service rfl distinct
  exact ⟨_, roster.serves (by rw [hselect]) stored⟩

/-- **The query of a page serves all layers.** -/
theorem PageAt.serves {info : ResourceType} {table : Table} {names : Names}
    {sort : List SortElement} {select : Select} {resourceType : String}
    (h : PageAt schema table fetch sort ⟨names, Draft.empty⟩ select)
    (stores : schema.Stores info table) (le : table.tableAlias.index ≤ names.tables)
    (stored : schema.table resourceType table.tableAlias = .ok table)
    (distinct : fetch.Distinct) : ∃ served, select.Serves schema resourceType fetch served := by
  obtain ⟨condition?, terms, limit, q, r, parameters, restricts, orders, page⟩ := h
  have stands := PrimaryPage.stands stores le restricts orders limit parameters
  rcases page with ⟨-, pushed⟩ | ⟨columns, below, last, settled, -, selects, follows, -, rfl⟩
  · exact pushed.serves stands stored distinct
  · have known : r.draft.Knows schema (.table table) table := Draft.knows_start stores
    obtain ⟨more, traces⟩ := (restricts.keepsTrace.trans orders.keepsTrace) table.tableAlias []
      (.start le rfl)
    have traces' : Progress.Traces table.tableAlias ⟨⟨r.names.tables, parameters⟩, r.draft⟩
        ([] ++ more) := traces.of_joined (Nat.le_refl _) rfl
    let primary : Service :=
      ⟨[], fetch.layer, table, .table table, table.tableAlias, columns⟩
    have service : primary.Stands schema (.table table) last :=
      ⟨List.mem_cons_self, rfl, Source.shows_table table, ⟨info, stores⟩, .inl rfl, selects⟩
    obtain ⟨services, roster⟩ := exists_roster primary follows stands.fits known traces'
      stands.unselected rfl service rfl distinct
    exact ⟨_, roster.serves rfl stored⟩

end Pages

end Compile

/-! ### Requests -/

namespace Request

/-- **Every layer of a request is served once, and completely.**  Each source of the outermost query
serves one layer or none, and each layer is served by one source: the primary layer by the source
that the query starts from, every other layer by a source that is joined, by the foreign key and the
identifier of the relationship that leads to the layer, to the source that serves the layer above.
The select list has what is wanted of each layer, in order, where its source stands, and nothing for
sources that serve no layer. -/
theorem compile_serves_layers {schema : Schema} {settings : QuerySettings} {request : Request}
    {plan : QueryPlan} (h : request.compile schema settings = .ok plan)
    (distinct : request.layer.Distinct) :
    ((Fetch.ofLayer request.layer).layers.map Prod.fst).Nodup
      ∧ ∃ served,
        plan.data.Serves schema request.resourceType (Fetch.ofLayer request.layer) served
        ∧ plan.data.selectors = served.flatMap (fun entry => entry.1.selectors) := by
  obtain ⟨-, -, table, htable, page⟩ :=
    (Compile.ensures_dataQuery schema settings request).run (run_of_compile h).1
  obtain ⟨-, named, info, stores⟩ := Schema.stores_of_table htable
  have le : table.tableAlias.index ≤ 1 := Sql.TableAlias.index_le named
  have fetched := Fetch.distinct_ofLayer distinct
  rw [← named] at htable
  obtain ⟨served, serves⟩ := page.serves stores le htable fetched
  refine ⟨Fetch.nodup_layersFrom _ fetched, served, serves, ?_⟩
  rw [Select.selectors, serves.entries, List.flatMap_map]

/-- Four layers are served: the tags, their items with an owner that is only included, and the
filtered tags of these. -/
theorem compile_serves_layers_sample :
    ∃ plan, sample.compile Schema.todo ⟨10, none, true⟩ = .ok plan ∧ sample.layer.Distinct
      ∧ (Fetch.ofLayer sample.layer).layers.map Prod.fst
        = [[], ["todoItem"], ["todoItem", "tags"], ["todoItem", "owner"]]
      ∧ ∃ served, plan.data.Serves Schema.todo "tags" (Fetch.ofLayer sample.layer) served
        ∧ plan.data.selectors = served.flatMap (fun entry => entry.1.selectors) := by
  have isOk : (sample.compile Schema.todo ⟨10, none, true⟩).isOk = true := by decide +kernel
  have distinct : sample.layer.Distinct := by
    simp [sample, Layer.Distinct, Layer.SelectionDistinct, Layer.AllDistinct]
  have paths : (Fetch.ofLayer sample.layer).layers.map Prod.fst
      = [[], ["todoItem"], ["todoItem", "tags"], ["todoItem", "owner"]] := by decide +kernel
  obtain ⟨plan, h⟩ := exists_of_isOk isOk
  exact ⟨plan, h, distinct, paths, (compile_serves_layers h distinct).2⟩

end Request

end ResourceQuery
