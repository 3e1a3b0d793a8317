import Mathlib.Data.List.Nodup
import ResourceQuery.Proofs.Schema.Tables
import ResourceQuery.Proofs.Sql.Scoping

/-!
# How a draft grows

While a query is compiled, its draft grows: relationships are followed, and each one that has not
been followed before from the same table is joined.  This file says once what following a
relationship does, and which invariant a draft keeps when it is done.

## Main Definitions

- `Draft.sources`: the source that a query starts from and those that are joined to it.
- `Remap.Resolves`: a reference leads to a source, directly or through a derived table.
- `Draft.Knows`: the columns of a table can be referred to.
- `Compile.Connects`: the columns by which a relationship connects two tables.
- `Compile.Reaches`, `Compile.Walks`: following one relationship, and a path of them.
- `Progress.Extends`, `Progress.Quiet`: what later progress leaves as it is.
- `Progress.Fits`: the invariant of a query under construction.

## Main Statements

- `Progress.Fits.addSource`: the invariant is kept when one more source is joined.
- `Compile.Reaches.fits`, `Compile.Walks.fits`: it is kept along every path.
- `Progress.Fits.eq_of_alias`: an alias belongs to one table only.

## Design Notes

References are resolved against the sources known so far, and everything added later has a fresh
alias.  So whatever resolves once keeps doing so, which is why every statement about a part of a
query carries over to the finished query by `Extends` alone.
-/

namespace ResourceQuery

open Sql (Table Source Column Remap TableAlias)

theorem Sql.TableAlias.index_le {a : TableAlias} {n : Nat} (h : a = ⟨n⟩) : a.index ≤ n :=
  Nat.le_of_eq (congrArg TableAlias.index h)

/-! ### Sources and references -/

/-- The sources of a query under construction, in order. -/
def Draft.sources (d : Draft) (start : Source) : List Source :=
  start :: d.joins.map Join.source

/-- **A reference leads to a source**: to the one whose alias it names, which exposes the column,
or to the derived table into which the named table was moved, which provides it. -/
def Sql.Remap.Resolves (m : Remap) (sources : List Source) (c : Column) : Prop :=
  ∃ a, c.alias? = some a ∧ ∃ source ∈ sources,
    match m.get? a with
    | none => source.alias? = some a ∧ source.Exposes c
    | some enclosing =>
      source.alias? = some enclosing ∧ (source.findColumn? c.name (some a)).isSome

/-- Both sides of each join condition lead to sources that are joined no later. -/
def Sql.Remap.ResolvesJoins (m : Remap) (before : List Source) : List Join → Prop
  | [] => True
  | join :: rest =>
    m.Resolves (before ++ [join.source]) join.on.outer
      ∧ m.Resolves (before ++ [join.source]) join.on.inner
      ∧ m.ResolvesJoins (before ++ [join.source]) rest

/-- **The columns of a table can be referred to**: the table is a source of the query, or it was
moved into a derived table that starts from it and selects all its columns. -/
structure Draft.Knows (schema : Schema) (start : Source) (d : Draft) (t : Table) : Prop where
  stored : ∃ info, schema.Stores info t
  placed : .table t ∈ d.sources start ∨ ∃ enclosing s,
    d.remap.get? t.tableAlias = some enclosing ∧ .derived s ∈ d.sources start
      ∧ s.alias? = some enclosing ∧ s.start? = some (.table t)
      ∧ ∀ c ∈ t.columns, (c, none) ∈ s.columnSelectors

/-! ### Following relationships -/

namespace Compile

/-- **A relationship connects two tables**: it leads from the one to the other, and its key columns
are equal for related rows. -/
structure Connects (schema : Schema) (source : Table) (name : String) (target : Table)
    (key : ForeignKey) (outer inner : Column) : Prop where
  leads : ∃ relationship, schema.relationship source.resourceType name = .ok relationship
    ∧ schema.table relationship.target target.tableAlias = .ok target
  resolved : schema.foreignKeyOf source.resourceType name = .ok key
  columns : keyColumns key source target = .ok (outer, inner)

/-- **One relationship is followed from a table**: the table it leads to is found again, or it is
joined under a fresh alias. -/
inductive Reaches (schema : Schema) : Progress → Table → String → Table → Progress → Prop
  | again {p : Progress} {source target : Table} {name : String}
      (found : p.draft.joinedFor? source.tableAlias name = some target) :
      Reaches schema p source name target p
  | anew {p : Progress} {source target : Table} {name : String} {key : ForeignKey}
      {outer inner : Column}
      (connects : Connects schema source name target key outer inner)
      (fresh : target.tableAlias = ⟨p.names.tables + 1⟩) :
      Reaches schema p source name target
        ⟨⟨p.names.tables + 1, p.names.parameters⟩,
          p.draft.addRelationshipJoin source.tableAlias name target
            ⟨.table target, ⟨joinKind key, outer, inner⟩⟩⟩

/-- **A path of to-one relationships is followed from a table.** -/
inductive Walks (schema : Schema) : Progress → Table → Path → Table → Progress → Prop
  | arrived {p : Progress} {t : Table} : Walks schema p t [] t p
  | step {p q r : Progress} {source middle target : Table} {name : String} {rest : Path}
      {relationship : Relationship}
      (declared : schema.relationship source.resourceType name = .ok relationship)
      (toOne : relationship.isToOne = true)
      (reaches : Reaches schema p source name middle q)
      (walks : Walks schema q middle rest target r) :
      Walks schema p source (name :: rest) target r

end Compile

/-! ### Progress and the invariant -/

/-- **Later progress leaves what was there as it is**: joins are added at the end under fresh
aliases, and tables that were named before have not been moved since. -/
structure Progress.Extends (p q : Progress) : Prop where
  names : p.names.tables ≤ q.names.tables
  joins : ∃ more, q.draft.joins = p.draft.joins ++ more
    ∧ ∀ join ∈ more, ∀ a, join.source.alias? = some a → p.names.tables < a.index
  remap : ∀ a, a.index ≤ p.names.tables → q.draft.remap.get? a = p.draft.remap.get? a

/-- **Nothing but tables has been joined**, under fresh aliases: nothing was moved or selected. -/
structure Progress.Quiet (p q : Progress) : Prop where
  names : p.names.tables ≤ q.names.tables
  joins : ∃ more, q.draft.joins = p.draft.joins ++ more
    ∧ ∀ join ∈ more, ∃ t, join.source = .table t ∧ p.names.tables < t.tableAlias.index
  remap : q.draft.remap = p.draft.remap
  selectors : q.draft.selectors = p.draft.selectors
  noted : p.draft.sortColumns ⊆ q.draft.sortColumns

/-- **The invariant of a query under construction.** -/
structure Progress.Fits (schema : Schema) (start : Source) (p : Progress) : Prop where
  /-- Every source has an alias, which has been given out. -/
  aliased : ∀ s ∈ p.draft.sources start, ∃ a, s.alias? = some a ∧ a.index ≤ p.names.tables
  /-- No two sources have the same alias. -/
  distinct : ((p.draft.sources start).map Source.alias?).Nodup
  /-- A table that was moved is no longer a source. -/
  moved : ∀ a e, p.draft.remap.get? a = some e →
    a.index ≤ p.names.tables ∧ ∀ s ∈ p.draft.sources start, s.alias? ≠ some a
  /-- Derived tables are closed. -/
  closed : ∀ s ∈ p.draft.sources start, s.WellScoped
  /-- Join conditions lead to sources that are joined no later. -/
  conditions : p.draft.remap.ResolvesJoins [start] p.draft.joins
  /-- A table found for a relationship was joined for it. -/
  joined : ∀ a name target, p.draft.joinedFor? a name = some target →
    ∃ source key outer inner, p.draft.Knows schema start source ∧ source.tableAlias = a
      ∧ Compile.Connects schema source name target key outer inner
      ∧ ⟨.table target, ⟨Compile.joinKind key, outer, inner⟩⟩ ∈ p.draft.joins
  /-- Only columns of sources are selected. -/
  selected : ∀ entry ∈ p.draft.selectors, ∀ selector ∈ entry.2,
    ∃ c rename?, selector = .column c rename? ∧ c.VisibleIn (p.draft.sources start)
  /-- The columns noted for the order lead to sources. -/
  sorted : ∀ c ∈ p.draft.sortColumns, p.draft.remap.Resolves (p.draft.sources start) c

namespace Progress

variable {p q r : Progress}

theorem Extends.refl (p : Progress) : p.Extends p :=
  ⟨Nat.le_refl _, ⟨[], by simp, by simp⟩, fun _ _ => rfl⟩

theorem Extends.trans (first : p.Extends q) (second : q.Extends r) : p.Extends r := by
  obtain ⟨more, hmore, fresh⟩ := first.joins
  obtain ⟨further, hfurther, fresh'⟩ := second.joins
  refine ⟨Nat.le_trans first.names second.names, ⟨more ++ further, ?_, ?_⟩, ?_⟩
  · rw [hfurther, hmore, List.append_assoc]
  · intro join mem a ha
    rcases List.mem_append.mp mem with mem | mem
    · exact fresh join mem a ha
    · exact Nat.lt_of_le_of_lt first.names (fresh' join mem a ha)
  · intro a le
    rw [second.remap a (Nat.le_trans le first.names), first.remap a le]

theorem Quiet.refl (p : Progress) : p.Quiet p :=
  ⟨Nat.le_refl _, ⟨[], by simp, by simp⟩, rfl, rfl, List.Subset.refl _⟩

theorem Quiet.trans (first : p.Quiet q) (second : q.Quiet r) : p.Quiet r := by
  obtain ⟨more, hmore, fresh⟩ := first.joins
  obtain ⟨further, hfurther, fresh'⟩ := second.joins
  refine ⟨Nat.le_trans first.names second.names, ⟨more ++ further, ?_, ?_⟩,
    second.remap.trans first.remap, second.selectors.trans first.selectors,
    List.Subset.trans first.noted second.noted⟩
  · rw [hfurther, hmore, List.append_assoc]
  · intro join mem
    rcases List.mem_append.mp mem with mem | mem
    · exact fresh join mem
    · obtain ⟨t, ht, lt⟩ := fresh' join mem
      exact ⟨t, ht, Nat.lt_of_le_of_lt first.names lt⟩

theorem Quiet.toExtends (quiet : p.Quiet q) : p.Extends q := by
  obtain ⟨more, hmore, fresh⟩ := quiet.joins
  refine ⟨quiet.names, ⟨more, hmore, ?_⟩, fun a _ => by rw [quiet.remap]⟩
  intro join mem a ha
  obtain ⟨t, ht, lt⟩ := fresh join mem
  rw [ht] at ha
  cases ha
  exact lt

/-- Taking names leaves the draft alone. -/
theorem Quiet.ofNames {names : Names} (le : p.names.tables ≤ names.tables) :
    p.Quiet ⟨names, p.draft⟩ :=
  ⟨le, ⟨[], by simp, by simp⟩, rfl, rfl, List.Subset.refl _⟩

/-- A source is an old one, or its alias is fresh. -/
theorem Extends.mem_sources (grown : p.Extends q) {start source : Source}
    (mem : source ∈ q.draft.sources start) :
    source ∈ p.draft.sources start
      ∨ ∀ a, source.alias? = some a → p.names.tables < a.index := by
  obtain ⟨more, hmore, fresh⟩ := grown.joins
  simp only [Draft.sources, hmore, List.map_append, List.mem_cons, List.mem_append] at mem ⊢
  rcases mem with h | h | h
  · exact .inl (.inl h)
  · exact .inl (.inr h)
  · obtain ⟨join, hjoin, rfl⟩ := List.mem_map.mp h
    exact .inr (fresh join hjoin)

theorem Extends.sources (grown : p.Extends q) (start : Source) :
    p.draft.sources start ⊆ q.draft.sources start := by
  obtain ⟨more, hmore, -⟩ := grown.joins
  intro source mem
  simp only [Draft.sources, hmore, List.map_append, List.mem_cons, List.mem_append] at mem ⊢
  rcases mem with h | h
  · exact .inl h
  · exact .inr (.inl h)

end Progress

/-- A derived table that selects a column of a table provides a column for it. -/
theorem Sql.Select.findColumn?_of_selected {s : Sql.Select} {t : Table} {c : Column}
    (mem : c ∈ t.columns) (selected : (c, none) ∈ s.columnSelectors) :
    ∃ found, s.findColumn? c.name (some t.tableAlias) = some found := by
  rw [← Option.isSome_iff_exists, Select.findColumn?, Option.isSome_map, List.find?_isSome]
  refine ⟨(c, none), selected, ?_⟩
  obtain ⟨kind, hc⟩ := Sql.Table.eq_inTable_of_mem_columns mem
  have named : c.refersTo c.name (some t.tableAlias) = true := by
    rw [hc]
    simp [Column.refersTo, Column.isNamed, Column.name, Column.alias?]
  simp [Select.provides, named]

/-! ### References along progress -/

namespace Sql.Remap

variable {m m' : Remap} {sources : List Source} {c : Column} {n : Nat}

theorem Resolves.mono (resolves : m.Resolves sources c) {more : List Source}
    (sub : sources ⊆ more) : m.Resolves more c := by
  obtain ⟨a, ha, source, mem, leads⟩ := resolves
  exact ⟨a, ha, source, sub mem, leads⟩

/-- Aliases of sources and of moved tables that have been given out. -/
structure Bounded (m : Remap) (sources : List Source) (n : Nat) : Prop where
  sources : ∀ s ∈ sources, ∀ a, s.alias? = some a → a.index ≤ n
  moves : ∀ a e, m.get? a = some e → a.index ≤ n

theorem Bounded.mono (bounded : m.Bounded sources n) {fewer : List Source}
    (sub : fewer ⊆ sources) : m.Bounded fewer n :=
  ⟨fun s mem => bounded.sources s (sub mem), bounded.moves⟩

/-- Where a reference leads does not depend on tables that are moved later. -/
theorem Resolves.agree (resolves : m.Resolves sources c)
    (same : ∀ a : TableAlias, a.index ≤ n → m'.get? a = m.get? a)
    (bounded : m.Bounded sources n) : m'.Resolves sources c := by
  obtain ⟨a, ha, source, mem, leads⟩ := resolves
  have le : a.index ≤ n := by
    cases hmove : m.get? a with
    | none =>
      simp only [hmove] at leads
      exact bounded.sources source mem a leads.1
    | some e => exact bounded.moves a e hmove
  refine ⟨a, ha, source, mem, ?_⟩
  rw [same a le]
  exact leads

theorem ResolvesJoins.agree {joins : List Join}
    (resolves : m.ResolvesJoins sources joins)
    (same : ∀ a : TableAlias, a.index ≤ n → m'.get? a = m.get? a)
    (bounded : m.Bounded (sources ++ joins.map Join.source) n) :
    m'.ResolvesJoins sources joins := by
  induction joins generalizing sources with
  | nil => trivial
  | cons join rest ih =>
    obtain ⟨outer, inner, others⟩ := resolves
    have first : m.Bounded (sources ++ [join.source]) n :=
      bounded.mono (fun s mem => by grind)
    refine ⟨outer.agree same first, inner.agree same first, ih others ?_⟩
    simpa using bounded

theorem resolvesJoins_concat {joins : List Join} {join : Join} :
    m.ResolvesJoins sources (joins ++ [join]) ↔ m.ResolvesJoins sources joins
      ∧ m.Resolves (sources ++ joins.map Join.source ++ [join.source]) join.on.outer
      ∧ m.Resolves (sources ++ joins.map Join.source ++ [join.source]) join.on.inner := by
  induction joins generalizing sources with
  | nil => simp [ResolvesJoins]
  | cons first rest ih =>
    simp only [List.cons_append, ResolvesJoins, ih, List.map_cons, List.append_assoc, and_assoc,
      List.nil_append]

end Sql.Remap

namespace Progress

variable {schema : Schema} {start : Source} {p q : Progress}

theorem Fits.bounded (fits : p.Fits schema start) :
    p.draft.remap.Bounded (p.draft.sources start) p.names.tables := by
  refine ⟨?_, fun a e hmove => (fits.moved a e hmove).1⟩
  intro s mem a ha
  obtain ⟨b, hb, le⟩ := fits.aliased s mem
  rw [ha] at hb
  cases hb
  exact le

/-- What a reference leads to is not affected by later progress. -/
theorem Fits.resolves_extends (fits : p.Fits schema start) (grown : p.Extends q) {c : Column}
    (resolves : p.draft.remap.Resolves (p.draft.sources start) c) :
    q.draft.remap.Resolves (q.draft.sources start) c :=
  (resolves.agree grown.remap fits.bounded).mono (grown.sources start)

/-- The alias of a known table has been given out. -/
theorem Fits.alias_le_of_knows (fits : p.Fits schema start) {t : Table}
    (known : p.draft.Knows schema start t) : t.tableAlias.index ≤ p.names.tables := by
  rcases known.placed with mem | ⟨e, s, hmove, -⟩
  · obtain ⟨a, ha, le⟩ := fits.aliased _ mem
    cases ha
    exact le
  · exact (fits.moved _ e hmove).1

/-- A known table stays known. -/
theorem Fits.knows_extends (fits : p.Fits schema start) (grown : p.Extends q) {t : Table}
    (known : p.draft.Knows schema start t) : q.draft.Knows schema start t := by
  have le := fits.alias_le_of_knows known
  refine ⟨known.stored, ?_⟩
  rcases known.placed with mem | ⟨e, s, hmove, mem, rest⟩
  · exact .inl (grown.sources start mem)
  · exact .inr ⟨e, s, by rw [grown.remap _ le, hmove], grown.sources start mem, rest⟩

/-- A table that is a source has not been moved. -/
theorem Fits.get?_of_mem (fits : p.Fits schema start) {source : Source} {a : TableAlias}
    (mem : source ∈ p.draft.sources start) (named : source.alias? = some a) :
    p.draft.remap.get? a = none := by
  cases hmove : p.draft.remap.get? a with
  | none => rfl
  | some e => exact absurd named ((fits.moved a e hmove).2 source mem)

/-- Sources of one alias are one source. -/
theorem Fits.source_unique (fits : p.Fits schema start) {s t : Source}
    (hs : s ∈ p.draft.sources start) (ht : t ∈ p.draft.sources start)
    (same : s.alias? = t.alias?) : s = t :=
  List.inj_on_of_nodup_map fits.distinct hs ht same

/-- **An alias belongs to one table only.** -/
theorem Fits.eq_of_alias (fits : p.Fits schema start) {s t : Table}
    (hs : p.draft.Knows schema start s) (ht : p.draft.Knows schema start t)
    (same : s.tableAlias = t.tableAlias) : s = t := by
  rcases hs.placed with mem | ⟨e, d, hmove, mem, named, starts, -⟩ <;>
    rcases ht.placed with mem' | ⟨e', d', hmove', mem', named', starts', -⟩
  · have one := fits.source_unique mem mem' (by simp [Source.alias?, same])
    cases one
    rfl
  · exact absurd (by simp [Source.alias?, same]) ((fits.moved _ _ hmove').2 _ mem)
  · exact absurd (by simp [Source.alias?, same]) ((fits.moved _ _ hmove).2 _ mem')
  · rw [same, hmove'] at hmove
    cases hmove
    have one := fits.source_unique mem mem' (by simp [Source.alias?, named, named'])
    cases one
    rw [starts] at starts'
    cases starts'
    rfl

/-- The columns of a known table can be referred to. -/
theorem Fits.resolves_of_knows (fits : p.Fits schema start) {t : Table}
    (known : p.draft.Knows schema start t) {c : Column} (mem : c ∈ t.columns) :
    p.draft.remap.Resolves (p.draft.sources start) c := by
  refine ⟨t.tableAlias, Sql.Table.alias?_of_mem_columns mem, ?_⟩
  rcases known.placed with placed | ⟨e, s, hmove, placed, named, -, selected⟩
  · refine ⟨.table t, placed, ?_⟩
    rw [fits.get?_of_mem placed rfl]
    exact ⟨rfl, mem⟩
  · refine ⟨.derived s, placed, ?_⟩
    rw [hmove]
    obtain ⟨found, hfound⟩ := Sql.Select.findColumn?_of_selected mem (selected c mem)
    exact ⟨named, by rw [Source.findColumn?, hfound]; rfl⟩

/-! ### The invariant is kept -/

/-- More names may be taken at any time. -/
theorem Fits.ofNames (fits : p.Fits schema start) {names : Names}
    (le : p.names.tables ≤ names.tables) : Fits schema start ⟨names, p.draft⟩ :=
  ⟨fun s mem => (fits.aliased s mem).imp fun _ h => ⟨h.1, Nat.le_trans h.2 le⟩,
    fits.distinct,
    fun a e hmove => ⟨Nat.le_trans (fits.moved a e hmove).1 le, (fits.moved a e hmove).2⟩,
    fits.closed, fits.conditions, fits.joined, fits.selected, fits.sorted⟩

section AddedSource

variable {join : Join} {a : TableAlias}

theorem sources_concat (joins : q.draft.joins = p.draft.joins ++ [join]) :
    q.draft.sources start = p.draft.sources start ++ [join.source] := by
  simp [Draft.sources, joins]

/-- With a new source, too, every source has an alias that was given out. -/
theorem Fits.aliased_concat (fits : p.Fits schema start) (grown : p.Extends q)
    (joins : q.draft.joins = p.draft.joins ++ [join]) (named : join.source.alias? = some a)
    (taken : a.index ≤ q.names.tables) :
    ∀ s ∈ q.draft.sources start, ∃ b, s.alias? = some b ∧ b.index ≤ q.names.tables := by
  intro s mem
  rw [sources_concat joins, List.mem_append, List.mem_singleton] at mem
  rcases mem with mem | rfl
  · obtain ⟨b, hb, le⟩ := fits.aliased s mem
    exact ⟨b, hb, Nat.le_trans le grown.names⟩
  · exact ⟨a, named, taken⟩

/-- The alias of a new source is none of those that were given out before. -/
theorem Fits.distinct_concat (fits : p.Fits schema start)
    (joins : q.draft.joins = p.draft.joins ++ [join]) (named : join.source.alias? = some a)
    (fresh : p.names.tables < a.index) : ((q.draft.sources start).map Source.alias?).Nodup := by
  rw [sources_concat joins, List.map_append, List.map_singleton, List.nodup_append]
  refine ⟨fits.distinct, List.nodup_singleton _, ?_⟩
  rintro b hb c hc rfl
  rw [List.mem_singleton, named] at hc
  obtain ⟨s, mem, hs⟩ := List.mem_map.mp hb
  have le := fits.bounded.sources s mem a (hs.trans hc)
  omega

/-- **A table that was moved is no source**: one that was moved before is not the new source, and
one that was moved since is none of the earlier sources. -/
theorem Fits.moved_concat (fits : p.Fits schema start) (grown : p.Extends q)
    (joins : q.draft.joins = p.draft.joins ++ [join]) (named : join.source.alias? = some a)
    (fresh : p.names.tables < a.index)
    (moved : ∀ b e, q.draft.remap.get? b = some e → p.draft.remap.get? b = some e
      ∨ p.names.tables < b.index ∧ b.index ≤ q.names.tables ∧ b ≠ a) (b e : TableAlias)
    (hmove : q.draft.remap.get? b = some e) :
    b.index ≤ q.names.tables ∧ ∀ s ∈ q.draft.sources start, s.alias? ≠ some b := by
  rw [sources_concat joins]
  rcases moved b e hmove with hmove | ⟨lt, le, ne⟩
  · obtain ⟨le, away⟩ := fits.moved b e hmove
    refine ⟨Nat.le_trans le grown.names, fun s mem hs => ?_⟩
    rw [List.mem_append, List.mem_singleton] at mem
    rcases mem with mem | rfl
    · exact away s mem hs
    · rw [named] at hs
      cases hs
      omega
  · refine ⟨le, fun s mem hs => ?_⟩
    rw [List.mem_append, List.mem_singleton] at mem
    rcases mem with mem | rfl
    · have := fits.bounded.sources s mem b hs
      omega
    · rw [named] at hs
      cases hs
      exact ne rfl

/-- A table that was found for a relationship is found for it still. -/
theorem Fits.joined_concat (fits : p.Fits schema start) (grown : p.Extends q)
    (joins : q.draft.joins = p.draft.joins ++ [join]) {b : TableAlias} {name : String}
    {target : Table} (found : p.draft.joinedFor? b name = some target) :
    ∃ source key outer inner, q.draft.Knows schema start source ∧ source.tableAlias = b
      ∧ Compile.Connects schema source name target key outer inner
      ∧ ⟨.table target, ⟨Compile.joinKind key, outer, inner⟩⟩ ∈ q.draft.joins := by
  obtain ⟨source, key, outer, inner, known, hsource, connects, mem⟩ :=
    fits.joined b name target found
  refine ⟨source, key, outer, inner, fits.knows_extends grown known, hsource, connects, ?_⟩
  rw [joins]
  exact List.mem_append_left _ mem

/-- **The invariant is kept when one more source is joined** under a fresh alias, be it a table or
a derived table into which fresh tables were moved. -/
theorem Fits.addSource (fits : p.Fits schema start) (grown : p.Extends q)
    (joins : q.draft.joins = p.draft.joins ++ [join])
    (named : join.source.alias? = some a) (fresh : p.names.tables < a.index)
    (taken : a.index ≤ q.names.tables) (closed : join.source.WellScoped)
    (moved : ∀ b e, q.draft.remap.get? b = some e → p.draft.remap.get? b = some e
      ∨ p.names.tables < b.index ∧ b.index ≤ q.names.tables ∧ b ≠ a)
    (outer : q.draft.remap.Resolves (q.draft.sources start) join.on.outer)
    (inner : q.draft.remap.Resolves (q.draft.sources start) join.on.inner)
    (joined : ∀ b name target, q.draft.joinedFor? b name = some target →
      p.draft.joinedFor? b name = some target
        ∨ ∃ source key outer inner, q.draft.Knows schema start source ∧ source.tableAlias = b
          ∧ Compile.Connects schema source name target key outer inner
          ∧ ⟨.table target, ⟨Compile.joinKind key, outer, inner⟩⟩ ∈ q.draft.joins)
    (selectors : q.draft.selectors = p.draft.selectors)
    (sortColumns : q.draft.sortColumns = p.draft.sortColumns) : q.Fits schema start := by
  refine ⟨fits.aliased_concat grown joins named taken, fits.distinct_concat joins named fresh,
    fits.moved_concat grown joins named fresh moved, ?closed, ?conditions, ?joined, ?selected,
    ?sorted⟩
  case closed =>
    intro s mem
    rw [sources_concat joins, List.mem_append, List.mem_singleton] at mem
    rcases mem with mem | rfl
    · exact fits.closed s mem
    · exact closed
  case conditions =>
    -- Earlier conditions resolve as before, because what they name has not been moved since.
    rw [joins, Sql.Remap.resolvesJoins_concat]
    rw [sources_concat joins] at outer inner
    exact ⟨fits.conditions.agree grown.remap fits.bounded, outer, inner⟩
  case joined =>
    intro b name target found
    rcases joined b name target found with found | new
    · exact fits.joined_concat grown joins found
    · exact new
  case selected =>
    rw [selectors]
    intro entry mem selector hselector
    obtain ⟨c, rename?, hc, visible⟩ := fits.selected entry mem selector hselector
    exact ⟨c, rename?, hc, visible.mono (grown.sources start)⟩
  case sorted =>
    rw [sortColumns]
    exact fun c mem => fits.resolves_extends grown (fits.sorted c mem)

end AddedSource

/-- A query that starts from a table, before anything has been joined to it. -/
theorem Fits.ofTable {t : Table} {names : Names} (le : t.tableAlias.index ≤ names.tables) :
    Fits schema (.table t) ⟨names, Draft.empty⟩ := by
  refine ⟨?_, by simp [Draft.sources, Draft.empty], ?_, ?_, trivial, ?_, ?_, ?_⟩
  · intro s mem
    rw [Draft.sources, Draft.empty, List.map_nil, List.mem_singleton] at mem
    subst mem
    exact ⟨t.tableAlias, rfl, le⟩
  · intro a e hmove
    cases hmove
  · intro s mem
    rw [Draft.sources, Draft.empty, List.map_nil, List.mem_singleton] at mem
    subst mem
    simp only [Source.WellScoped]
  · intro a name target found
    cases found
  · intro entry mem
    cases mem
  · intro c mem
    cases mem

end Progress

/-- The table that a query starts from is known. -/
theorem Draft.knows_start {schema : Schema} {d : Draft} {t : Table} {info : ResourceType}
    (stores : schema.Stores info t) : d.Knows schema (.table t) t :=
  ⟨⟨info, stores⟩, .inl List.mem_cons_self⟩

namespace Compile

variable {schema : Schema} {start : Source} {p q : Progress} {source target : Table}

/-- The key columns are columns of the tables that they connect. -/
theorem Connects.mem_columns {name : String} {key : ForeignKey} {outer inner : Column}
    (connects : Connects schema source name target key outer inner)
    (stored : ∃ info, schema.Stores info source) :
    outer ∈ source.columns ∧ inner ∈ target.columns := by
  obtain ⟨relationship, hrel, htable⟩ := connects.leads
  obtain ⟨leads, -, targetInfo, htarget⟩ := Schema.stores_of_table htable
  obtain ⟨sourceInfo, hsource⟩ := stored
  obtain ⟨outer', mem, inner', mem', hcolumns, -⟩ :=
    keyColumns_ok connects.resolved hrel hsource htarget leads
  rw [connects.columns] at hcolumns
  cases hcolumns
  exact ⟨mem, mem'⟩

theorem Connects.stored {name : String} {key : ForeignKey} {outer inner : Column}
    (connects : Connects schema source name target key outer inner) :
    ∃ info, schema.Stores info target := by
  obtain ⟨relationship, -, htable⟩ := connects.leads
  exact (Schema.stores_of_table htable).2.2

/-- The table that a relationship leads to stores its target. -/
theorem Connects.resourceType_eq {name : String} {key : ForeignKey} {outer inner : Column}
    (connects : Connects schema source name target key outer inner) :
    target.resourceType = schema.targetOf source.resourceType name := by
  obtain ⟨relationship, hrel, htable⟩ := connects.leads
  rw [Schema.targetOf, hrel]
  exact (Schema.stores_of_table htable).1

theorem Reaches.quiet {name : String} (reaches : Reaches schema p source name target q) :
    p.Quiet q := by
  cases reaches with
  | again => exact .refl p
  | anew connects fresh =>
    refine ⟨Nat.le_succ _, ⟨[_], rfl, ?_⟩, rfl, rfl, List.Subset.refl _⟩
    intro join mem
    rw [List.mem_singleton] at mem
    subst mem
    exact ⟨_, rfl, by rw [fresh]; exact Nat.lt_succ_self _⟩

/-- **Following a relationship from a known table keeps the invariant**, and the table it leads to
is known. -/
theorem Reaches.fits {name : String} (reaches : Reaches schema p source name target q)
    (fits : p.Fits schema start) (known : p.draft.Knows schema start source) :
    q.Fits schema start ∧ q.draft.Knows schema start target := by
  have grown := reaches.quiet.toExtends
  cases reaches with
  | again found =>
    obtain ⟨owner, key, outer, inner, -, -, connects, mem⟩ := fits.joined _ _ _ found
    exact ⟨fits, connects.stored, .inl (List.mem_cons_of_mem _ (List.mem_map_of_mem mem))⟩
  | @anew _ _ key outer inner connects fresh =>
    obtain ⟨houter, hinner⟩ := connects.mem_columns known.stored
    have known' := fits.knows_extends grown known
    have placed : Source.table target ∈ Draft.sources (p.draft.addRelationshipJoin
        source.tableAlias name target ⟨.table target, ⟨joinKind key, outer, inner⟩⟩) start := by
      simp [Draft.sources, Draft.addRelationshipJoin]
    refine ⟨fits.addSource grown rfl (a := target.tableAlias) rfl ?_ ?_ ?_ (fun _ _ => .inl)
      ?_ ?_ ?_ rfl rfl, connects.stored, .inl placed⟩
    · rw [fresh]
      exact Nat.lt_succ_self _
    · exact Sql.TableAlias.index_le fresh
    · simp only [Source.WellScoped]
    · exact fits.resolves_extends grown (fits.resolves_of_knows known houter)
    · -- The fresh table has not been moved, so its column is exposed by itself.
      refine ⟨target.tableAlias, Sql.Table.alias?_of_mem_columns hinner, _, placed, ?_⟩
      have unmoved : p.draft.remap.get? target.tableAlias = none := by
        cases hmove : p.draft.remap.get? target.tableAlias with
        | none => rfl
        | some e =>
          have le := (fits.moved _ e hmove).1
          rw [fresh] at le
          exact absurd le (Nat.not_succ_le_self _)
      simp only [Draft.addRelationshipJoin, unmoved]
      exact ⟨rfl, hinner⟩
    · intro b other found' hfound
      by_cases same : (b, other) = (source.tableAlias, name)
      · cases same
        simp only [Draft.joinedFor?, Draft.addRelationshipJoin, List.lookup_cons_self] at hfound
        cases hfound
        refine .inr ⟨source, key, outer, inner, known', rfl, connects, ?_⟩
        simp [Draft.addRelationshipJoin]
      · left
        have ne : ((b, other) == (source.tableAlias, name)) = false := by simpa using same
        simpa only [Draft.joinedFor?, Draft.addRelationshipJoin, List.lookup_cons, ne] using hfound

/-- A query that starts anew from the table a relationship leads to, under the next alias. -/
theorem Connects.starts {name : String} {key : ForeignKey} {outer inner : Column} {n : Nat}
    (connects : Connects schema source name target key outer inner)
    (named : target.tableAlias = ⟨n + 1⟩) (parameters : Nat) :
    Progress.Fits schema (.table target) ⟨⟨n + 1, parameters⟩, Draft.empty⟩
      ∧ Draft.empty.Knows schema (.table target) target := by
  obtain ⟨info, stores⟩ := connects.stored
  exact ⟨.ofTable (Sql.TableAlias.index_le named), Draft.knows_start stores⟩

/-- The join that follows a relationship between two known tables. -/
theorem Reaches.exists_join {name : String} (reaches : Reaches schema p source name target q)
    (fits : p.Fits schema start) (known : p.draft.Knows schema start source) :
    ∃ key outer inner, Connects schema source name target key outer inner
      ∧ ⟨.table target, ⟨joinKind key, outer, inner⟩⟩ ∈ q.draft.joins := by
  cases reaches with
  | again found =>
    obtain ⟨owner, key, outer, inner, owned, named, connects, mem⟩ := fits.joined _ _ _ found
    obtain rfl := fits.eq_of_alias owned known named
    exact ⟨key, outer, inner, connects, mem⟩
  | @anew _ _ key outer inner connects fresh =>
    exact ⟨key, outer, inner, connects, List.mem_append_right _ (List.mem_singleton_self _)⟩

theorem Walks.quiet {path : Path} (walks : Walks schema p source path target q) : p.Quiet q := by
  induction walks with
  | arrived => exact .refl _
  | step _ _ reaches _ ih => exact reaches.quiet.trans ih

/-- **Following a path from a known table keeps the invariant**, and the table at its end is
known. -/
theorem Walks.fits {path : Path} (walks : Walks schema p source path target q)
    (fits : p.Fits schema start) (known : p.draft.Knows schema start source) :
    q.Fits schema start ∧ q.draft.Knows schema start target := by
  induction walks with
  | arrived => exact ⟨fits, known⟩
  | step _ _ reaches _ ih =>
    obtain ⟨fits, known⟩ := reaches.fits fits known
    exact ih fits known

/-- The table at the end of a path stores the path's destination. -/
theorem Walks.resourceType_eq {path : Path} (walks : Walks schema p source path target q)
    (fits : p.Fits schema start) (known : p.draft.Knows schema start source) :
    target.resourceType = schema.destination source.resourceType path := by
  induction walks with
  | arrived => rfl
  | step _ _ reaches _ ih =>
    obtain ⟨key, outer, inner, connects, -⟩ := reaches.exists_join fits known
    obtain ⟨fits', known'⟩ := reaches.fits fits known
    rw [ih fits' known', connects.resourceType_eq]
    rfl

end Compile

end ResourceQuery
