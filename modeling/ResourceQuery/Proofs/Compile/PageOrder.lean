import ResourceQuery.Proofs.Compile.Showing

/-!
# The order of a page and the order around it

When a page is moved into a derived table, its order is repeated outside.  Criteria by column are
redirected to what the page selects; criteria by number are compiled again, with joins of their own.
Here the orders are read off the finished query, without reference to the compiler: a criterion is
described by the path that leads to it and by the joins along that path.

## Main Definitions

- `Select.JoinsAlong`: a query joins what a path of to-one relationships leads to.
- `SortElement.Sorts`: a criterion is the one that a sort element asks for.
- `Fetch.criteria`: the criteria that relationship layers add.
- `Select.FromLayer`: a criterion is one that a relationship layer adds.
- `Draft.Presents`: the columns of a table are shown under an alias, with their own names.
- `SortElement.Repeats`: a criterion around a page repeats a criterion of the page.

## Main Statements

- `SortElement.Becomes.sorts`: a compiled criterion is the one that its element asks for.
- `Fetch.Becomes.fromLayers`: what is followed adds the criteria of its layers, in order.
- `Compile.PrimaryPage.Around.led_term`: a criterion by column is redirected to the column that the
  page selects for it.
- `Request.compile_keeps_order`: the order around a page begins with the order of the page.

## Design Notes

In a text, a reference consists of an alias and a name.  So nothing else is compared here.
-/

namespace ResourceQuery

open Sql (Table Source Select Selector Entry Column Condition OrderTerm TableAlias Remap)

/-! ### Orders in a query -/

/-- **The columns by which rows are related**: the names of the foreign key and of the identifier
that are equal for a row and those that a relationship leads to. -/
def Schema.RelatesBy (schema : Schema) (resourceType name : String) (relationship : Relationship)
    (columns : String × String) : Prop :=
  schema.relationship resourceType name = .ok relationship
    ∧ ∃ key sourceInfo targetInfo, schema.foreignKeyOf resourceType name = .ok key
      ∧ schema.resourceType resourceType = .ok sourceInfo
      ∧ schema.resourceType relationship.target = .ok targetInfo
      ∧ columns = key.columnNames sourceInfo.idColumn targetInfo.idColumn

/-- **A query joins what a path of to-one relationships leads to**, from the resources of a type
that are shown under an alias to those of another type, under the alias of the table joined last. -/
inductive Sql.Select.JoinsAlong (schema : Schema) (s : Select) :
    String → TableAlias → Path → String → TableAlias → Prop
  | arrived {resourceType : String} {a : TableAlias} :
      JoinsAlong schema s resourceType a [] resourceType a
  | step {resourceType name target : String} {a b : TableAlias} {relationship : Relationship}
      {path : Path} {t : Table} {kind : Sql.JoinKind} {outer inner : Column}
      {selectors : List Selector}
      (related : schema.RelatesBy resourceType name relationship (outer.name, inner.name))
      (toOne : relationship.isToOne = true)
      (joined : ⟨.table t, some ⟨kind, outer, inner⟩, selectors⟩ ∈ s.entries)
      (stored : t.resourceType = relationship.target)
      (outside : outer.alias? = some a) (inside : inner.alias? = some t.tableAlias)
      (rest : JoinsAlong schema s t.resourceType t.tableAlias path target b) :
      JoinsAlong schema s resourceType a (name :: path) target b

/-- **A query counts the rows of a resource type that have in a column what the row shown under an
alias has in another.** -/
def Sql.Select.CountsRelated (a : TableAlias) (resourceType : String) (columns : String × String)
    (counted : Select) : Prop :=
  ∃ t outer inner, t.resourceType = resourceType
    ∧ outer.alias? = some a ∧ inner.alias? = some t.tableAlias
    ∧ columns = (outer.name, inner.name)
    ∧ counted = ⟨[⟨.table t, none, [.countRows]⟩],
      some (.comparison (.column outer) .equal (.column inner)), none, none, none⟩

/-- **A criterion is the one that a sort element asks for**, in a query that shows resources of a
type under an alias: the column of a field at the end of a path, or the number of rows there. -/
def SortElement.Sorts (schema : Schema) (s : Select) (resourceType : String) (a : TableAlias)
    (element : SortElement) (term : OrderTerm) : Prop :=
  term.descending = element.descending ∧
    match element.target with
    | .field path =>
      ∃ name owner b info c, path.getLast? = some name
        ∧ s.JoinsAlong schema resourceType a path.dropLast owner b
        ∧ schema.field owner name = .ok info
        ∧ term.target = .column c ∧ c.alias? = some b ∧ c.name = info.column
    | .count path =>
      ∃ name owner b relationship columns counted, path.getLast? = some name
        ∧ s.JoinsAlong schema resourceType a path.dropLast owner b
        ∧ schema.RelatesBy owner name relationship columns
        ∧ counted.CountsRelated b relationship.target columns
        ∧ term.target = .count counted

/-! ### Criteria of layers -/

/-- A criterion that a relationship layer adds to the order. -/
inductive LayerCriterion where
  | element (element : SortElement)
  /-- The identifier of the resources that a to-many relationship leads to. -/
  | identifier

/-- The criteria that a layer adds, with the resource type that its relationship leads to. -/
def Layer.criteria (schema : Schema) (resourceType name : String) (layer : Layer) :
    List (String × LayerCriterion) :=
  let target := schema.targetOf resourceType name
  (layer.sort?.getD []).map (fun element => (target, .element element))
    ++ (match schema.relationship resourceType name with
      | .ok relationship => if relationship.isToMany then [(target, .identifier)] else []
      | .error _ => [])

namespace Fetch

mutual

/-- **The criteria that relationship layers add**, in the order in which they are followed. -/
def criteria (schema : Schema) (resourceType : String) : Fetch → List (String × LayerCriterion)
  | mk _ relationships => allCriteria schema resourceType relationships

/-- The criteria that a list of relationships adds, each with everything to be followed from
there. -/
def allCriteria (schema : Schema) (resourceType : String) :
    List (String × Fetch) → List (String × LayerCriterion)
  | [] => []
  | (name, fetch) :: rest =>
    fetch.layer.criteria schema resourceType name
      ++ criteria schema (schema.targetOf resourceType name) fetch
      ++ allCriteria schema resourceType rest

end

end Fetch

/-- The resource type that a source shows: that of a table, or of the table that a derived table
starts from. -/
def Sql.Source.resourceType? : Source → Option String
  | .table t => some t.resourceType
  | .derived s =>
    match s.start? with
    | some (.table t) => some t.resourceType
    | _ => none

theorem Sql.Source.resourceType?_of_base {source : Source} {t : Table}
    (base : source.base? = some t) : source.resourceType? = some t.resourceType := by
  unfold Source.base? at base
  split at base
  · cases base
    rfl
  · split at base
    · rename_i starts
      cases base
      simp only [Source.resourceType?, starts]
    · cases base

/-- **A criterion is one that a relationship layer adds**: it belongs to a joined source that shows
the resources of the layer. -/
def Sql.Select.FromLayer (schema : Schema) (s : Select) (criterion : String × LayerCriterion)
    (term : OrderTerm) : Prop :=
  ∃ entry ∈ s.entries, ∃ a, entry.join?.isSome = true ∧ entry.source.alias? = some a
    ∧ entry.source.resourceType? = some criterion.1
    ∧ match criterion.2 with
      | .element element => element.Sorts schema s criterion.1 a term
      | .identifier => ∃ c info, schema.resourceType criterion.1 = .ok info
        ∧ c.alias? = some a ∧ c.name = info.idColumn ∧ term = ⟨.column c, false⟩

/-! ### Tables under an alias -/

/-- **The columns of a table are shown under an alias**, with their own names, in the finished
query. -/
def Draft.Presents (d : Draft) (start : Source) (t : Table) (a : TableAlias) : Prop :=
  ∀ c ∈ t.columns, (d.remap.led (d.sources start) c).alias? = some a
    ∧ (d.remap.led (d.sources start) c).name = c.name

section Presented

variable {schema : Schema} {start : Source} {p q last : Progress} {t : Table}

/-- A table is shown under the alias of the source that shows it. -/
theorem Progress.Fits.presents (fits : last.Fits schema start) {source : Source} {a : TableAlias}
    (mem : source ∈ last.draft.sources start) (shows : source.Shows t)
    (named : source.alias? = some a)
    (moved : source = .table t ∨ last.draft.remap.get? t.tableAlias = some a) :
    last.draft.Presents start t a := by
  intro c listed
  obtain ⟨aliased, own, -⟩ := fits.led_of_shows mem shows named moved listed
  exact ⟨aliased, own⟩

theorem Progress.Fits.presents_table (fits : last.Fits schema start)
    (mem : .table t ∈ last.draft.sources start) : last.draft.Presents start t t.tableAlias :=
  fits.presents mem (Source.shows_table t) rfl (.inl rfl)

end Presented

/-! ### Criteria along paths -/

section Criteria

variable {schema : Schema} {start : Source} {p q last : Progress} {source target : Table}
  {a : TableAlias} {s : Select} {selectors : List Selector}

namespace Compile

/-- The key columns of two connected tables are those by which their rows are related. -/
theorem Connects.relatesBy {name : String} {key : ForeignKey} {outer inner : Column}
    (connects : Connects schema source name target key outer inner)
    (stored : ∃ info, schema.Stores info source) :
    ∃ relationship, schema.RelatesBy source.resourceType name relationship
        (outer.name, inner.name)
      ∧ target.resourceType = relationship.target := by
  obtain ⟨relationship, declared, htable⟩ := connects.leads
  obtain ⟨leads, -, targetInfo, stores⟩ := Schema.stores_of_table htable
  obtain ⟨sourceInfo, storesSource⟩ := stored
  obtain ⟨outer', -, inner', -, hcolumns, names⟩ :=
    keyColumns_ok connects.resolved declared storesSource stores leads
  rw [connects.columns] at hcolumns
  cases hcolumns
  have described := stores.described
  rw [leads] at described
  exact ⟨relationship, ⟨declared, key, sourceInfo, targetInfo, connects.resolved,
    storesSource.described, described, names⟩, leads⟩

/-- A relationship that connects two tables leads to the table of its target. -/
theorem Connects.related {name : String} {key : ForeignKey} {outer inner : Column}
    (connects : Connects schema source name target key outer inner)
    (stored : ∃ info, schema.Stores info source) :
    ∃ relationship, schema.RelatesBy source.resourceType name relationship
        (outer.name, inner.name)
      ∧ schema.table relationship.target target.tableAlias = .ok target := by
  obtain ⟨relationship, related, -⟩ := connects.relatesBy stored
  obtain ⟨found, declared, htable⟩ := connects.leads
  cases declared.symm.trans related.1
  exact ⟨relationship, related, htable⟩

/-- **A path that was followed is joined in the finished query**, from wherever the table that it
starts from is shown. -/
theorem Walks.joinsAlong {path : Path} (walks : Walks schema p source path target q)
    (fits : p.Fits schema start) (known : p.draft.Knows schema start source)
    (grown : q.Extends last) (finished : last.Fits schema start)
    (entries : s.entries = last.draft.finishedEntries start selectors)
    (shown : last.draft.Presents start source a) :
    ∃ b, s.JoinsAlong schema source.resourceType a path target.resourceType b
      ∧ last.draft.Presents start target b := by
  induction walks generalizing a with
  | arrived => exact ⟨a, .arrived, shown⟩
  | @step p r q source middle target name rest relationship declared toOne reaches walks ih =>
    obtain ⟨key, outer, inner, connects, joined⟩ := reaches.exists_join fits known
    obtain ⟨fits', known'⟩ := reaches.fits fits known
    have placed : ⟨.table middle, ⟨joinKind key, outer, inner⟩⟩ ∈ last.draft.joins := by
      obtain ⟨more, hmore, -⟩ := (walks.quiet.toExtends.trans grown).joins
      rw [hmore]
      exact List.mem_append_left _ joined
    have presented := finished.presents_table (t := middle)
      (List.mem_cons_of_mem _ (List.mem_map_of_mem placed))
    obtain ⟨b, along, arrived⟩ := ih fits' known' grown presented
    obtain ⟨mem, mem'⟩ := connects.mem_columns known.stored
    obtain ⟨found, related, leads⟩ := connects.relatesBy known.stored
    cases declared.symm.trans related.1
    have listed : ⟨.table middle, some (last.draft.remap.ledJoin (last.draft.sources start)
        ⟨joinKind key, outer, inner⟩), last.draft.selectorsOf (.table middle)⟩ ∈ s.entries := by
      rw [entries]
      exact List.mem_cons_of_mem _ (List.mem_map.mpr ⟨_, placed, rfl⟩)
    refine ⟨b, .step ?_ toOne listed leads (shown outer mem).1 (presented inner mem').1 along,
      arrived⟩
    rw [(shown outer mem).2, (presented inner mem').2]
    exact related

end Compile

/-- **A compiled criterion is the one that its sort element asks for.** -/
theorem SortElement.Becomes.sorts {element : SortElement} {term settled : OrderTerm}
    (h : element.Becomes schema source p term q) (fits : p.Fits schema start)
    (known : p.draft.Knows schema start source) (grown : q.Extends last)
    (finished : last.Fits schema start)
    (entries : s.entries = last.draft.finishedEntries start selectors)
    (shown : last.draft.Presents start source a)
    (settles : term.Settles last.draft.remap (last.draft.sources start) settled) :
    element.Sorts schema s source.resourceType a settled := by
  cases htarget : element.target with
  | field path =>
    rw [SortElement.Becomes, htarget] at h
    obtain ⟨c, info, middle, ⟨name, owner, hlast, walks, field, column⟩, rfl, rfl⟩ := h
    have grown' : middle.Extends last := by
      refine Progress.Extends.trans ?_ grown
      split
      · exact .refl _
      · exact (Progress.Quiet.addSortColumn _ _).toExtends
    obtain ⟨b, along, presented⟩ := walks.joinsAlong fits known grown' finished entries shown
    obtain ⟨ownerInfo, stores⟩ := (walks.fits fits known).2.stored
    obtain ⟨c', mem, column', named⟩ := Compile.getColumn_of_field stores field
    cases column.symm.trans column'
    cases settles
    refine ⟨rfl, ?_⟩
    rw [htarget]
    refine ⟨name, _, b, info, _, hlast, along, field, rfl, (presented c mem).1, ?_⟩
    rw [(presented c mem).2, named]
  | count path =>
    rw [SortElement.Becomes, htarget] at h
    obtain ⟨select, ⟨owner, name, r, target, key, outer, inner, ⟨hlast, walks, -⟩, connects, -,
      rfl, rfl⟩, rfl⟩ := h
    have grown' : r.Extends last := by
      refine Progress.Extends.trans ?_ grown
      exact (Progress.Quiet.ofNames (Nat.le_succ _)).toExtends
    obtain ⟨b, along, presented⟩ := walks.joinsAlong fits known grown' finished entries shown
    have stored := (walks.fits fits known).2.stored
    obtain ⟨mem, counted⟩ := connects.mem_columns stored
    obtain ⟨relationship, related, leads⟩ := connects.relatesBy stored
    cases settles
    refine ⟨rfl, ?_⟩
    rw [htarget]
    refine ⟨name, _, b, relationship, _, _, hlast, along, related, ⟨target, _, inner, leads,
      (presented outer mem).1, Table.alias?_of_mem_columns counted, ?_, rfl⟩, rfl⟩
    rw [(presented outer mem).2]

theorem Compile.Orders.sorts {sort : List SortElement} {terms settled : List OrderTerm}
    (h : Orders schema source sort p terms q) (fits : p.Fits schema start)
    (known : p.draft.Knows schema start source) (grown : q.Extends last)
    (finished : last.Fits schema start)
    (entries : s.entries = last.draft.finishedEntries start selectors)
    (shown : last.draft.Presents start source a)
    (settles : List.Forall₂ (OrderTerm.Settles last.draft.remap (last.draft.sources start)) terms
      settled) :
    List.Forall₂ (SortElement.Sorts schema s source.resourceType a) sort settled := by
  induction sort generalizing p terms settled with
  | nil =>
    obtain ⟨rfl, rfl⟩ := h
    cases settles
    exact .nil
  | cons element rest ih =>
    obtain ⟨term, others, middle, first, after, rfl⟩ := h
    cases settles with
    | cons settle settles =>
      have fits' := (first.fits fits known).1
      have known' := fits.knows_extends first.quiet.toExtends known
      have later := after.quiet.toExtends.trans grown
      exact .cons (first.sorts fits known later finished entries shown settle)
        (ih after fits' known' settles)

end Criteria

/-! ### Criteria of relationship layers -/

theorem forall₂_of_append {α β : Type} {R : α → β → Prop} {xs ys : List α} {zs : List β}
    (h : List.Forall₂ R (xs ++ ys) zs) :
    ∃ as bs, zs = as ++ bs ∧ List.Forall₂ R xs as ∧ List.Forall₂ R ys bs :=
  ⟨_, _, (List.take_append_drop xs.length zs).symm,
    (List.forall₂_take_append zs xs ys h.flip).flip,
    (List.forall₂_drop_append zs xs ys h.flip).flip⟩

section Layers

variable {schema : Schema} {start : Source} {last : Progress} {s : Select}
  {selectors : List Selector}

namespace Compile

variable {p q : Progress} {source target : Table} {name : String}

/-- What a relationship leads to is shown by a joined source. -/
theorem RelatedAt.presents {filter? : Option Filter} {provider : Source} {a : TableAlias}
    (h : RelatedAt schema p source name filter? target provider q) (fits : p.Fits schema start)
    (known : p.draft.Knows schema start source) (named : provider.alias? = some a)
    (grown : q.Extends last) (finished : last.Fits schema start) :
    (∃ join ∈ last.draft.joins, join.source = provider)
      ∧ provider.resourceType? = some target.resourceType
      ∧ target.resourceType = schema.targetOf source.resourceType name
      ∧ last.draft.Presents start target a := by
  obtain ⟨shows, moved, key, kind, outer, inner, connects, joined⟩ :=
    h.shows fits known named grown
  have placed : provider ∈ last.draft.sources start :=
    List.mem_cons_of_mem _ (List.mem_map_of_mem joined)
  exact ⟨⟨_, joined, rfl⟩, Source.resourceType?_of_base shows.base, connects.resourceType_eq,
    finished.presents placed shows named moved⟩

/-- **A joined layer adds its criteria**: those of its sort, and the identifier if it leads to many
resources. -/
theorem LayerAt.fromLayer {layer : Layer} {terms settled : List OrderTerm}
    (h : LayerAt schema p source name layer target terms q) (fits : p.Fits schema start)
    (known : p.draft.Knows schema start source) (grown : q.Extends last)
    (finished : last.Fits schema start)
    (entries : s.entries = last.draft.finishedEntries start selectors)
    (settles : List.Forall₂ (OrderTerm.Settles last.draft.remap (last.draft.sources start)) terms
      settled) :
    List.Forall₂ (s.FromLayer schema) (layer.criteria schema source.resourceType name) settled := by
  obtain ⟨relationship, provider, a, middle, columns, own, id, declared, related, named, selects,
    orders, hid, rfl⟩ := h
  obtain ⟨-, joined, reached, mem⟩ := related.fits fits known
  have selecting := Progress.Extends.addSelectors middle a columns
  have selected := joined.addSelectors (a := a) (selects.visible mem named)
  have reached' := joined.knows_extends selecting reached
  have later := orders.quiet.toExtends.trans grown
  obtain ⟨⟨join, placed, rfl⟩, shows, leads, presented⟩ :=
    related.presents fits known named (selecting.trans later) finished
  -- The entry that every criterion of this layer belongs to.
  have entry : ∀ {criterion : LayerCriterion} {term : OrderTerm},
      (match criterion with
        | .element element => element.Sorts schema s target.resourceType a term
        | .identifier => ∃ c info, schema.resourceType target.resourceType = .ok info
          ∧ c.alias? = some a ∧ c.name = info.idColumn ∧ term = ⟨.column c, false⟩) →
      s.FromLayer schema (target.resourceType, criterion) term := by
    intro criterion term belongs
    have listed : ⟨join.source, some (last.draft.remap.ledJoin (last.draft.sources start) join.on),
        last.draft.selectorsOf join.source⟩ ∈ s.entries := by
      rw [entries]
      exact List.mem_cons_of_mem _ (List.mem_map.mpr ⟨join, placed, rfl⟩)
    exact ⟨_, listed, a, rfl, named, shows, belongs⟩
  obtain ⟨sorted, rest, rfl, settlesOwn, settlesId⟩ := forall₂_of_append settles
  have sorts := orders.sorts selected reached' grown finished entries presented settlesOwn
  simp only [Layer.criteria, declared, ← leads]
  refine List.rel_append ?_ ?_
  · rw [List.forall₂_map_left_iff]
    exact sorts.imp fun element term sorts => entry sorts
  · split at settlesId
    · cases settlesId with
      | cons settle none_ =>
        cases none_
        cases settle
        obtain ⟨info, stores⟩ := reached.stored
        obtain ⟨c, hc, hcolumn, idNamed⟩ := stores.idColumn_ok
        cases hid.symm.trans hcolumn
        rw [if_pos ‹_›]
        refine .cons (entry ⟨_, info, stores.described, (presented id hc).1, ?_, rfl⟩) .nil
        rw [(presented id hc).2, idNamed]
    · cases settlesId
      rw [if_neg ‹_›]
      exact .nil

end Compile

namespace Fetch

mutual

/-- **What is followed adds the criteria of its layers**, in order. -/
theorem Becomes.fromLayers {table : Table} {p q : Progress} {terms settled : List OrderTerm} :
    (fetch : Fetch) → fetch.Becomes schema table p terms q → p.Fits schema start →
      p.draft.Knows schema start table → q.Extends last → last.Fits schema start →
      s.entries = last.draft.finishedEntries start selectors →
      List.Forall₂ (OrderTerm.Settles last.draft.remap (last.draft.sources start)) terms settled →
      List.Forall₂ (s.FromLayer schema) (fetch.criteria schema table.resourceType) settled
  | mk _ relationships, h, fits, known, grown, finished, entries, settles => by
    simp only [Becomes] at h
    rw [criteria]
    exact AllBecome.fromLayers relationships h fits known grown finished entries settles

theorem AllBecome.fromLayers {table : Table} {p q : Progress} {terms settled : List OrderTerm} :
    (relationships : List (String × Fetch)) →
      AllBecome schema table relationships p terms q → p.Fits schema start →
      p.draft.Knows schema start table → q.Extends last → last.Fits schema start →
      s.entries = last.draft.finishedEntries start selectors →
      List.Forall₂ (OrderTerm.Settles last.draft.remap (last.draft.sources start)) terms settled →
      List.Forall₂ (s.FromLayer schema) (allCriteria schema table.resourceType relationships)
        settled
  | [], h, _, _, _, _, _, settles => by
    simp only [AllBecome] at h
    obtain ⟨rfl, rfl⟩ := h
    cases settles
    rw [allCriteria]
    exact .nil
  | (name, fetch) :: rest, h, fits, known, grown, finished, entries, settles => by
    simp only [AllBecome] at h
    obtain ⟨target, own, below, after, r, t, layer, inside, others, rfl⟩ := h
    obtain ⟨joining, joined, reached, -⟩ := layer.grows fits known
    obtain ⟨following, followed, -⟩ := Becomes.grows fetch inside joined reached
    have back := fits.knows_extends (joining.trans following) known
    have finishing := (AllBecome.grows rest others followed back).1.trans grown
    obtain ⟨front, settledAfter, rfl, settlesFront, settlesAfter⟩ := forall₂_of_append settles
    obtain ⟨settledOwn, settledBelow, rfl, settlesOwn, settlesBelow⟩ :=
      forall₂_of_append settlesFront
    rw [allCriteria, ← layer.resourceType_eq fits known]
    refine List.rel_append (List.rel_append ?_ ?_) ?_
    · exact layer.fromLayer fits known (following.trans finishing) finished entries settlesOwn
    · exact Becomes.fromLayers fetch inside joined reached finishing finished entries settlesBelow
    · exact AllBecome.fromLayers rest others followed back grown finished entries settlesAfter

end

end Fetch

end Layers

/-! ### The order around a page -/

namespace Compile

section Around

variable {schema : Schema} {page : PrimaryPage} {names : Names} {sorted last : Progress}

/-- A page selects columns of its sources. -/
theorem PrimaryPage.Stands.selected_visible (stands : page.Stands schema names) {a : TableAlias}
    {selected : Column × Option String} (mem : selected ∈ (page.finished a).columnSelectors) :
    selected.1.VisibleIn (page.draft.sources (.table page.table)) := by
  rw [Select.columnSelectors, PrimaryPage.selectors_finished] at mem
  obtain ⟨selector, listed, selects⟩ := List.mem_filterMap.mp mem
  rcases List.mem_append.mp listed with own | joined
  · obtain ⟨c, hc, rfl⟩ := List.mem_map.mp own
    cases selects
    exact ⟨_, List.mem_cons_self, rfl, Table.alias?_of_mem_columns hc, hc⟩
  · obtain ⟨join, hjoin, listed⟩ := List.mem_flatMap.mp joined
    obtain ⟨c, rename?, rfl, visible⟩ :=
      stands.fits_fullDraft.selectorsOf_visible join.source selector listed
    cases selects
    exact visible

/-- **A criterion by column is redirected to the column that the page selects for it**, whatever
name it has there. -/
theorem PrimaryPage.Around.led_term (around : page.Around schema names sorted last) {c : Column}
    {descending : Bool} (mem : ⟨.column c, descending⟩ ∈ page.terms) :
    ∃ rename?, (c, rename?) ∈ (page.finished ⟨names.tables + 1⟩).columnSelectors
      ∧ last.draft.remap.led
          (last.draft.sources (.derived (page.finished ⟨names.tables + 1⟩))) c
        = (page.finished ⟨names.tables + 1⟩).expose (c, rename?) := by
  have stands := around.stands
  -- Inside the page the column belongs to one of its tables.
  obtain ⟨a, source, named, listed, hsource, aliased, exposes⟩ := stands.term_source mem
  obtain ⟨t, info, rfl, stores⟩ := around.source_table hsource
  have moved : sorted.draft.remap.get? a = some ⟨names.tables + 1⟩ := by
    rw [around.get?_moved, if_pos listed]
  -- Around the page, the page provides a column for it.
  obtain ⟨found, hfound⟩ : ∃ found, (page.finished ⟨names.tables + 1⟩).findColumn? c.name (some a)
      = some found := by
    obtain ⟨m, hm, -⟩ := page.outerDraft_eq ⟨names.tables + 1⟩
    obtain ⟨a', named', source', hsource', leads⟩ := stands.outer_resolves ⟨names.tables + 1⟩ mem
    cases named.symm.trans named'
    rw [← around.moved, moved] at leads
    rw [hm] at hsource'
    cases List.mem_singleton.mp hsource'
    exact Option.isSome_iff_exists.mp leads.2
  rw [Remap.led_of_moved around.lastFits.distinct List.mem_cons_self rfl named
    (around.get?_last listed) hfound]
  simp only [Select.findColumn?, Option.map_eq_some_iff] at hfound
  obtain ⟨selected, hselected, rfl⟩ := hfound
  have selects := List.mem_of_find?_eq_some hselected
  have provides := List.find?_some hselected
  obtain ⟨name, kind, alias?, inTable⟩ := around.eq_inTable selects
  have same : selected.1.name = c.name ∧ selected.1.alias? = some a := by
    rw [inTable]
    exact (Select.provides_iff inTable).mp provides
  -- The two columns belong to the same table, in which names are unique.
  obtain ⟨source, hsource', -, owner, exposes'⟩ := stands.selected_visible selects
  cases stands.fits.source_unique hsource hsource' (by rw [aliased, ← owner, same.2])
  have one := List.inj_on_of_nodup_map stores.distinct exposes' exposes same.1
  obtain ⟨column, rename?⟩ := selected
  cases one
  exact ⟨rename?, selects, rfl⟩

end Around

end Compile

/-- **A criterion around a page repeats the criterion of the page**: a column is the one that the
page selects for it, under the name given to it there, and a number is counted again by the same
columns, from where the same path leads. -/
def SortElement.Repeats (schema : Schema) (page data : Select) (resourceType : String)
    (root enclosing : TableAlias) (element : SortElement) (inner outer : OrderTerm) : Prop :=
  outer.descending = inner.descending ∧
    match element.target with
    | .field _ => ∃ c rename?, inner.target = .column c ∧ (c, rename?) ∈ page.columnSelectors
      ∧ outer.target = .column (page.expose (c, rename?))
    | .count path => ∃ owner b b' target columns counted counted',
      page.JoinsAlong schema resourceType root path.dropLast owner b
      ∧ data.JoinsAlong schema resourceType enclosing path.dropLast owner b'
      ∧ counted.CountsRelated b target columns ∧ counted'.CountsRelated b' target columns
      ∧ inner.target = .count counted ∧ outer.target = .count counted'

section Repeated

variable {schema : Schema} {page data : Select} {resourceType : String}
  {root enclosing : TableAlias}

theorem Schema.RelatesBy.unique {name : String} {relationship relationship' : Relationship}
    {columns columns' : String × String}
    (h : schema.RelatesBy resourceType name relationship columns)
    (h' : schema.RelatesBy resourceType name relationship' columns') :
    relationship = relationship' ∧ columns = columns' := by
  obtain ⟨declared, key, sourceInfo, targetInfo, resolved, source, target, rfl⟩ := h
  obtain ⟨declared', key', sourceInfo', targetInfo', resolved', source', target', rfl⟩ := h'
  cases declared.symm.trans declared'
  cases resolved.symm.trans resolved'
  cases source.symm.trans source'
  cases target.symm.trans target'
  exact ⟨rfl, rfl⟩

/-- A path leads to one resource type, in whichever query it is joined. -/
theorem Sql.Select.JoinsAlong.unique {path : Path} {target target' : String}
    {a a' b b' : TableAlias} (h : page.JoinsAlong schema resourceType a path target b)
    (h' : data.JoinsAlong schema resourceType a' path target' b') : target = target' := by
  induction h generalizing a' with
  | arrived =>
    cases h'
    rfl
  | step related _ _ stored _ _ _ ih =>
    cases h' with
    | step related' _ _ stored' _ _ rest' =>
      obtain ⟨rfl, -⟩ := related.unique related'
      rw [← stored.trans stored'.symm] at rest'
      exact ih rest'

/-- A number that is counted again is the same number. -/
theorem SortElement.Sorts.repeats_count {element : SortElement} {path : Path}
    {inner outer : OrderTerm} (counts : element.target = .count path)
    (h : element.Sorts schema page resourceType root inner)
    (h' : element.Sorts schema data resourceType enclosing outer) :
    element.Repeats schema page data resourceType root enclosing inner outer := by
  obtain ⟨direction, h⟩ := h
  obtain ⟨direction', h'⟩ := h'
  refine ⟨direction'.trans direction.symm, ?_⟩
  rw [counts] at h h' ⊢
  obtain ⟨name, owner, b, relationship, columns, counted, ends, along, related, counting,
    hinner⟩ := h
  obtain ⟨name', owner', b', relationship', columns', counted', ends', along', related', counting',
    houter⟩ := h'
  cases ends.symm.trans ends'
  cases along.unique along'
  obtain ⟨rfl, rfl⟩ := related.unique related'
  exact ⟨owner, b, b', _, columns, counted, counted', along, along', counting, counting', hinner,
    houter⟩

/-- A column that a page selects is repeated under the name given to it there. -/
theorem SortElement.Sorts.repeats_column {element : SortElement} {c : Column}
    {rename? : Option String} {descending : Bool}
    (h : element.Sorts schema page resourceType root ⟨.column c, descending⟩)
    (selected : (c, rename?) ∈ page.columnSelectors) :
    element.Repeats schema page data resourceType root enclosing ⟨.column c, descending⟩
      ⟨.column (page.expose (c, rename?)), descending⟩ := by
  obtain ⟨-, h⟩ := h
  refine ⟨rfl, ?_⟩
  cases target : element.target with
  | field path => exact ⟨c, rename?, rfl, selected, rfl⟩
  | count path =>
    rw [target] at h
    obtain ⟨_, _, _, _, _, _, -, -, -, -, counted⟩ := h
    cases counted

/-- Only a number is sorted by counting. -/
theorem SortElement.Sorts.exists_count {element : SortElement} {select : Select}
    {descending : Bool}
    (h : element.Sorts schema page resourceType root ⟨.count select, descending⟩) :
    ∃ path, element.target = .count path := by
  obtain ⟨-, h⟩ := h
  cases target : element.target with
  | field path =>
    rw [target] at h
    obtain ⟨_, _, _, _, _, -, -, -, column, -⟩ := h
    cases column
  | count path => exact ⟨path, rfl⟩

variable {start : Source} {p q last : Progress} {table : Table} {selectors : List Selector}

/-- **One criterion around a page repeats that of the page**, and the draft stays fit for the
others. -/
theorem Compile.repeats_criterion {element : SortElement} {term first again : OrderTerm}
    {middle : Progress}
    (made : match term.target with
      | .column _ => first = term ∧ middle = p
      | .count _ => element.Becomes schema table p first middle)
    (fits : p.Fits schema start) (known : p.draft.Knows schema start table)
    (grown : middle.Extends last) (finished : last.Fits schema start)
    (entries : data.entries = last.draft.finishedEntries start selectors)
    (shown : last.draft.Presents start table enclosing)
    (asked : element.Sorts schema page table.resourceType root term)
    (columns : ∀ c descending, term = ⟨.column c, descending⟩ → ∃ rename?,
      (c, rename?) ∈ page.columnSelectors
        ∧ last.draft.remap.led (last.draft.sources start) c = page.expose (c, rename?))
    (settle : OrderTerm.Settles last.draft.remap (last.draft.sources start) first again) :
    element.Repeats schema page data table.resourceType root enclosing term again
      ∧ middle.Fits schema start ∧ middle.draft.Knows schema start table := by
  obtain ⟨target, descending⟩ := term
  cases target with
  | column c =>
    obtain ⟨rfl, rfl⟩ := made
    obtain ⟨rename?, selected, led⟩ := columns c descending rfl
    cases settle
    rw [led]
    exact ⟨asked.repeats_column selected, fits, known⟩
  | count select =>
    obtain ⟨path, counts⟩ := asked.exists_count
    have again := SortElement.Becomes.sorts made fits known grown finished entries shown settle
    exact ⟨asked.repeats_count counts again, (SortElement.Becomes.fits made fits known).1,
      fits.knows_extends made.quiet.toExtends known⟩

/-- **The criteria around a page repeat those of the page**, one by one. -/
theorem Compile.OuterOrders.repeats {terms outer settled : List OrderTerm} {sort : List SortElement}
    (h : OuterOrders schema table terms sort p outer q) (fits : p.Fits schema start)
    (known : p.draft.Knows schema start table) (grown : q.Extends last)
    (finished : last.Fits schema start)
    (entries : data.entries = last.draft.finishedEntries start selectors)
    (shown : last.draft.Presents start table enclosing)
    (inside : List.Forall₂ (SortElement.Sorts schema page table.resourceType root) sort terms)
    (columns : ∀ c descending, ⟨.column c, descending⟩ ∈ terms → ∃ rename?,
      (c, rename?) ∈ page.columnSelectors
        ∧ last.draft.remap.led (last.draft.sources start) c = page.expose (c, rename?))
    (settles : List.Forall₂ (OrderTerm.Settles last.draft.remap (last.draft.sources start)) outer
      settled) :
    settled.length = sort.length ∧ ∀ (k : Nat) element inner outer, sort[k]? = some element →
      terms[k]? = some inner → settled[k]? = some outer →
      SortElement.Repeats schema page data table.resourceType root enclosing element inner
        outer := by
  induction inside generalizing p outer settled with
  | nil =>
    obtain ⟨rfl, -⟩ := h
    cases settles
    exact ⟨rfl, fun k _ _ _ found => by simp at found⟩
  | @cons element term sort terms asked _ ih =>
    obtain ⟨first, others, middle, made, after, rfl⟩ := h
    cases settles with
    | @cons _ again _ rest settle settlesRest =>
      obtain ⟨own, fits', known'⟩ := repeats_criterion made fits known
        (after.quiet.toExtends.trans grown) finished entries shown asked
        (fun c descending same => columns c descending (same ▸ List.mem_cons_self)) settle
      obtain ⟨length, ih⟩ := ih after fits' known'
        (fun c descending mem => columns c descending (List.mem_cons_of_mem _ mem)) settlesRest
      refine ⟨congrArg Nat.succ length, fun k => ?_⟩
      cases k with
      | zero =>
        intro _ _ _ first second third
        cases first
        cases second
        cases third
        exact own
      | succ k => exact ih k

end Repeated

/-! ### Pages and the queries around them -/

namespace Compile

section Pages

variable {schema : Schema} {page : PrimaryPage} {names : Names} {sorted last p q : Progress}

/-- Nothing in a page is redirected. -/
theorem PrimaryPage.Stands.settles (stands : page.Stands schema names) :
    List.Forall₂ (OrderTerm.Settles page.fullDraft.remap
      (page.fullDraft.sources (.table page.table))) page.terms page.terms := by
  obtain ⟨settled, settles, -⟩ :=
    OrderTerm.exists_settled stands.fits_fullDraft.distinct stands.leads
  have same : settled = page.terms := by
    rw [stands.unmoved] at settles
    exact OrderTerm.eq_of_settles_empty settles
  rwa [same] at settles

/-- **The criteria of a page are those that the sort elements ask for.** -/
theorem PrimaryPage.Stands.sorts (stands : page.Stands schema names) {sort : List SortElement}
    (orders : Orders schema page.table sort p page.terms q)
    (fits : p.Fits schema (.table page.table))
    (known : p.draft.Knows schema (.table page.table) page.table)
    (grown : q.Extends ⟨names, page.fullDraft⟩) (a : TableAlias) :
    List.Forall₂ (SortElement.Sorts schema (page.finished a) page.table.resourceType
      page.table.tableAlias) sort page.terms := by
  have unmoved : page.fullDraft.remap = Remap.empty := stands.unmoved
  have entries : (page.finished a).entries = page.fullDraft.finishedEntries (.table page.table)
      (page.table.columns.map (fun c => .column c none)) := by
    rw [Draft.finishedEntries_of_unmoved unmoved]
    rfl
  exact orders.sorts fits known grown stands.fits_fullDraft entries
    (stands.fits_fullDraft.presents_table List.mem_cons_self) stands.settles

/-- The page shows the columns of its table in the query around it. -/
theorem PrimaryPage.Around.presents (around : page.Around schema names sorted last) :
    last.draft.Presents (.derived (page.finished ⟨names.tables + 1⟩)) page.table
      ⟨names.tables + 1⟩ := by
  exact around.lastFits.presents List.mem_cons_self (page.shows_finished _) rfl
    (.inr (around.get?_last List.mem_cons_self))

/-- **The order around a page begins with the order of the page**, and goes on with the criteria of
relationship layers. -/
theorem PushedDown.repeats {fetch : Fetch} {sort : List SortElement} {select : Select}
    (h : PushedDown schema page names fetch sort select) (stands : page.Stands schema names)
    (follows : ∀ join ∈ page.draft.joins, FollowsOne schema join)
    (inside : List.Forall₂ (SortElement.Sorts schema (page.finished ⟨names.tables + 1⟩)
      page.table.resourceType page.table.tableAlias) sort page.terms) :
    ∃ outer further, select.order? = orderOf (outer ++ further) ∧ outer.length = sort.length
      ∧ (∀ (k : Nat) element i o, sort[k]? = some element → page.terms[k]? = some i →
        outer[k]? = some o → SortElement.Repeats schema (page.finished ⟨names.tables + 1⟩) select
          page.table.resourceType page.table.tableAlias ⟨names.tables + 1⟩ element i o)
      ∧ List.Forall₂ (select.FromLayer schema) (fetch.criteria schema page.table.resourceType)
        further := by
  obtain ⟨parameters, outer, columns, below, sorted, last, settled, orders, -, followed, settles,
    hselect⟩ := h
  have entries : select.entries = last.draft.finishedEntries
      (.derived (page.finished ⟨names.tables + 1⟩)) columns := by rw [hselect]
  have order : select.order? = orderOf settled := by rw [hselect]
  obtain ⟨around, -⟩ := orders.around followed stands follows
  have fits := stands.outer_fits parameters
  have known := stands.outer_knows ⟨names.tables + 1⟩
  obtain ⟨again, further, rfl, settlesOwn, settlesBelow⟩ := forall₂_of_append settles
  obtain ⟨length, repeats⟩ := orders.repeats fits known around.grown around.lastFits entries
    around.presents inside (fun c descending mem => around.led_term mem) settlesOwn
  have known' := fits.knows_extends orders.quiet.toExtends known
  exact ⟨again, further, order, length, repeats, Fetch.Becomes.fromLayers fetch followed
    around.sortedFits known' (.refl last) around.lastFits entries settlesBelow⟩

end Pages

end Compile

/-! ### Requests -/

namespace Request

variable {schema : Schema} {settings : QuerySettings} {request : Request}

/-- **A page that is moved into a derived table keeps its order.**  Let the related resources of a
request multiply rows.  Then the page, whose columns have different names, has one criterion for
each sort element.  The order around it begins with as many, which repeat them one by one: a column
is the one that the page selects for it, and a number is counted again, from where the same path
leads.  All other criteria come from relationship layers. -/
theorem compile_keeps_order {plan : QueryPlan} (h : request.compile schema settings = .ok plan)
    (multiplies : (Fetch.ofLayer request.layer).reachesToMany schema request.resourceType
      = .ok true) :
    ∃ page t enclosing inner outer further,
      plan.data.start? = some (.derived page) ∧ page.alias? = some enclosing
      ∧ page.start? = some (.table t) ∧ t.resourceType = request.resourceType
      ∧ page.outputNames.Nodup
      ∧ page.order? = Compile.orderOf inner ∧ inner.length = request.sort.length
      ∧ plan.data.order? = Compile.orderOf (outer ++ further)
      ∧ outer.length = request.sort.length
      ∧ (∀ (k : Nat) element i o, request.sort[k]? = some element → inner[k]? = some i →
        outer[k]? = some o →
        SortElement.Sorts schema page request.resourceType t.tableAlias element i
          ∧ SortElement.Repeats schema page plan.data request.resourceType t.tableAlias enclosing
            element i o)
      ∧ List.Forall₂ (plan.data.FromLayer schema)
        ((Fetch.ofLayer request.layer).criteria schema request.resourceType) further := by
  obtain ⟨-, -, table, htable, page⟩ :=
    (Compile.ensures_dataQuery schema settings request).run (run_of_compile h).1
  obtain ⟨leads, named, info, stores⟩ := Schema.stores_of_table htable
  have le := Sql.TableAlias.index_le named
  rw [← leads] at multiplies ⊢
  obtain ⟨condition?, terms, limit, q, r, parameters, restricts, orders, ⟨-, pushed⟩
    | ⟨_, _, _, _, single, -⟩⟩ := page
  swap
  · rw [multiplies] at single
    cases single
  have started : Draft.empty.Knows schema (.table table) table := Draft.knows_start stores
  have fits := restricts.fits (.ofTable le) started
  have known : q.draft.Knows schema (.table table) table := Draft.knows_start stores
  have stands := Compile.PrimaryPage.stands stores le restricts orders limit parameters
  have chain := restricts.chain (.ofTable le) started rfl .nil
  have follows := orders.followsOne fits known chain.followsOne
  have grown : r.Extends ⟨⟨r.names.tables, parameters⟩,
      Compile.PrimaryPage.fullDraft ⟨r.draft, table, condition?, terms, limit⟩⟩ :=
    ⟨Nat.le_refl _, ⟨[], (List.append_nil _).symm, fun _ mem => absurd mem List.not_mem_nil⟩,
      fun _ _ => rfl⟩
  have inside := stands.sorts orders fits known grown ⟨r.names.tables + 1⟩
  obtain ⟨outer, further, order, length, repeats, layers⟩ := pushed.repeats stands follows inside
  have starts : plan.data.start? = some (.derived (Compile.PrimaryPage.finished
      ⟨r.draft, table, condition?, terms, limit⟩ ⟨r.names.tables + 1⟩)) := by
    obtain ⟨_, _, _, _, _, _, _, -, -, -, -, hselect⟩ := pushed
    rw [hselect]
    rfl
  have closed := stands.closed ⟨r.names.tables + 1⟩
  simp only [Source.WellScoped] at closed
  refine ⟨_, table, _, terms, outer, further, starts, rfl, rfl, rfl, closed.2.2, rfl,
    inside.length_eq.symm, order, length, ?_, layers⟩
  intro k element i o asked own again
  refine ⟨?_, repeats k element i o asked own again⟩
  obtain ⟨hk, rfl⟩ := List.getElem?_eq_some_iff.mp asked
  obtain ⟨hk', rfl⟩ := List.getElem?_eq_some_iff.mp own
  exact inside.get hk hk'

/-- The two criteria of a page of tags, the first of which is a number, are repeated around the
page.  Two more come from the tags below the items of these tags. -/
theorem compile_keeps_order_sample :
    ∃ plan page enclosing, sample.compile Schema.todo ⟨10, none, true⟩ = .ok plan
      ∧ (Fetch.ofLayer sample.layer).reachesToMany Schema.todo "tags" = .ok true
      ∧ plan.data.start? = some (.derived page) ∧ page.alias? = some enclosing
      ∧ ∃ i₁ i₂ o₁ o₂ f₁ f₂, page.order? = some [i₁, i₂] ∧ plan.data.order? = some [o₁, o₂, f₁, f₂]
        ∧ i₁.descending = true ∧ o₁.descending = true
        ∧ (∃ counted, o₁.target = .count counted)
        ∧ ∃ c rename?, i₂.target = .column c ∧ (c, rename?) ∈ page.columnSelectors
          ∧ o₂.target = .column (page.expose (c, rename?)) := by
  have isOk : (sample.compile Schema.todo ⟨10, none, true⟩).isOk = true := by decide +kernel
  obtain ⟨plan, h⟩ := exists_of_isOk isOk
  have multiplies : (Fetch.ofLayer sample.layer).reachesToMany Schema.todo sample.resourceType
      = .ok true := by decide +kernel
  have layers : ((Fetch.ofLayer sample.layer).criteria Schema.todo sample.resourceType).length
      = 2 := by decide +kernel
  obtain ⟨page, t, enclosing, inner, outer, further, starts, aliased, -, -, -, order, length,
    order', length', repeats, more⟩ := compile_keeps_order h multiplies
  rw [more.length_eq] at layers
  obtain ⟨i₁, i₂, rfl⟩ := List.length_eq_two.mp length
  obtain ⟨o₁, o₂, rfl⟩ := List.length_eq_two.mp length'
  obtain ⟨f₁, f₂, rfl⟩ := List.length_eq_two.mp layers
  obtain ⟨⟨asked, -⟩, direction, _, _, _, _, _, _, counted, -, -, -, -, -, number⟩ :=
    repeats 0 _ i₁ o₁ rfl rfl rfl
  obtain ⟨-, -, column⟩ := repeats 1 _ i₂ o₂ rfl rfl rfl
  exact ⟨plan, page, enclosing, h, multiplies, starts, aliased, i₁, i₂, o₁, o₂, f₁, f₂, order,
    order', asked, direction.trans asked, ⟨counted, number⟩, column⟩

end Request

end ResourceQuery
