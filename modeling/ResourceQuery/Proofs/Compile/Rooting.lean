import ResourceQuery.Compile.Query
import ResourceQuery.Proofs.Compile.Assembly
import ResourceQuery.Proofs.Sql.Nodes

/-!
# Which requests keep all rows

A relationship whose foreign key is stored in the row itself and never null is followed by an inner
join, because every row then has a counterpart.  That is right only if the row is there: after an
outer join it may be missing.  This file says which requests are compiled into statements whose
inner joins discard no rows that an outer join kept, and what paths and filters add to that
condition.

## Main Definitions

- `Schema.keepsAlong`: no required relationship is followed right after an optional one.
- `Filter.keeps`, `SortElement.keeps`, `Fetch.keeps`: the same for whole filters, sorts and trees of
  relationships.
- `Request.keepsRows`: the same for requests.
- `Progress.Rooted`: the inner joins made so far discard no rows.

## Main Statements

- `Compile.Walks.rooted`: what following a path adds to the condition.
- `Sql.Select.forall_nodes_finished`: the queries inside a finished query are rooted if and only if
  its joins and the queries inside its parts are.
- `Filter.Becomes.rooted`: what a filter adds to the condition.
-/

namespace ResourceQuery

open Sql (Table Source Select Entry Selector Column Condition OrderTerm Remap TableAlias Limit)

/-! ### The condition on requests -/

namespace Schema

/-- Is a relationship followed by an inner join. -/
def joinsInner (schema : Schema) (resourceType name : String) : Bool :=
  match schema.foreignKeyOf resourceType name with
  | .ok key => Compile.joinKind key = .inner
  | .error _ => false

/-- **No inner join right after an outer join** along a path that starts from a source that is there
for every row, or not. -/
def keepsAlong (schema : Schema) : Bool → String → Path → Bool
  | _, _, [] => true
  | kept, resourceType, name :: rest =>
    (kept || !schema.joinsInner resourceType name)
      && schema.keepsAlong (schema.joinsInner resourceType name)
        (schema.targetOf resourceType name) rest

end Schema

/-- A side of a comparison follows its path without losing rows. -/
def Expression.keeps (schema : Schema) (resourceType : String) : Expression → Bool
  | .field path => schema.keepsAlong true resourceType path.dropLast
  | .count path => schema.keepsAlong true resourceType path.dropLast
  | .constant _ => true
  | .null => true

namespace Filter

mutual

/-- **A filter follows its paths without losing rows**, and so do the filters inside it. -/
def keeps (schema : Schema) (resourceType : String) : Filter → Bool
  | .comparison _ left right => left.keeps schema resourceType && right.keeps schema resourceType
  | .and terms => allKeep schema resourceType terms
  | .or terms => allKeep schema resourceType terms
  | .not term => keeps schema resourceType term
  | .textMatch field _ _ => schema.keepsAlong true resourceType field.dropLast
  | .any field _ => schema.keepsAlong true resourceType field.dropLast
  | .has relationship filter? =>
    schema.keepsAlong true resourceType relationship.dropLast
      && optionKeeps schema (schema.destination resourceType relationship) filter?
  | .isType _ _ => true

/-- Several filters follow their paths without losing rows. -/
def allKeep (schema : Schema) (resourceType : String) : List Filter → Bool
  | [] => true
  | term :: rest => keeps schema resourceType term && allKeep schema resourceType rest

/-- A filter that may be absent follows its paths without losing rows. -/
def optionKeeps (schema : Schema) (resourceType : String) : Option Filter → Bool
  | none => true
  | some filter => keeps schema resourceType filter

end

end Filter

/-- A sort element follows its path without losing rows. -/
def SortElement.keeps (schema : Schema) (kept : Bool) (resourceType : String)
    (element : SortElement) : Bool :=
  match element.target with
  | .field path => schema.keepsAlong kept resourceType path.dropLast
  | .count path => schema.keepsAlong kept resourceType path.dropLast

/-- Is a relationship of a layer inner-joined.  A filtered one never is. -/
def Layer.joinsInner (schema : Schema) (resourceType name : String) (layer : Layer) : Bool :=
  layer.filter?.isNone && schema.joinsInner resourceType name

/-- A relationship of a layer is followed without losing rows, and so are the paths of the layer. -/
def Layer.keeps (schema : Schema) (kept : Bool) (resourceType name : String) (layer : Layer) :
    Bool :=
  (kept || !layer.joinsInner schema resourceType name)
    && Filter.optionKeeps schema (schema.targetOf resourceType name) layer.filter?
    && (layer.sort?.getD []).all (SortElement.keeps schema
      (layer.joinsInner schema resourceType name) (schema.targetOf resourceType name))

namespace Fetch

mutual

/-- **A tree of relationships is followed without losing rows.** -/
def keeps (schema : Schema) (kept : Bool) (resourceType : String) : Fetch → Bool
  | mk _ relationships => allKeep schema kept resourceType relationships

/-- Several relationships are followed without losing rows. -/
def allKeep (schema : Schema) (kept : Bool) (resourceType : String) :
    List (String × Fetch) → Bool
  | [] => true
  | (name, fetch) :: rest =>
    fetch.layer.keeps schema kept resourceType name
      && keeps schema (fetch.layer.joinsInner schema resourceType name)
        (schema.targetOf resourceType name) fetch
      && allKeep schema kept resourceType rest

end

end Fetch

/-- **A request keeps rows**: along no path of its filters, its sorts and its relationships is a
required relationship followed right after an optional or a filtered one. -/
def Request.keepsRows (schema : Schema) (request : Request) : Bool :=
  Filter.optionKeeps schema request.resourceType request.layer.filter?
    && (request.layer.sort?.getD Compile.defaultSort).all
      (SortElement.keeps schema true request.resourceType)
    && (Fetch.ofLayer request.layer).keeps schema true request.resourceType

/-! ### Queries under construction -/

/-- A source that is there for every row: the one that the query starts from, or one that is
inner-joined. -/
def Draft.KeepsRows (d : Draft) (start : Source) (a : TableAlias) : Prop :=
  start.alias? = some a
    ∨ ∃ join ∈ d.joins, join.source.alias? = some a ∧ join.on.kind = .inner

/-- The source that a table is now part of. -/
def Draft.home (d : Draft) (a : TableAlias) : TableAlias :=
  (d.remap.get? a).getD a

/-- An inner join is made from a source that is there for every row. -/
def Join.RootedIn (join : Join) (d : Draft) (start : Source) : Prop :=
  join.on.kind = .inner → ∃ a, join.on.outer.alias? = some a ∧ d.KeepsRows start (d.home a)

/-- **The inner joins made so far discard no rows**, neither here nor in the derived tables. -/
structure Progress.Rooted (start : Source) (p : Progress) : Prop where
  joins : ∀ join ∈ p.draft.joins, join.RootedIn p.draft start
  inside : ∀ join ∈ p.draft.joins, ∀ node ∈ join.source.nodes, node.Rooted

/-- The rows of a table are all there. -/
def Progress.Keeps (start : Source) (p : Progress) (t : Table) : Prop :=
  p.draft.KeepsRows start (p.draft.home t.tableAlias)

/-! ### Rows along progress -/

section Progress

variable {schema : Schema} {start : Source} {p q : Progress}

namespace Progress.Fits

/-- The table of a reference that resolves is part of a source. -/
theorem home_of_resolves (fits : p.Fits schema start) {c : Column} {a : TableAlias}
    (resolves : p.draft.remap.Resolves (p.draft.sources start) c) (named : c.alias? = some a) :
    a.index ≤ p.names.tables
      ∧ ∃ source ∈ p.draft.sources start, source.alias? = some (p.draft.home a) := by
  obtain ⟨b, hb, source, mem, leads⟩ := resolves
  rw [named] at hb
  cases hb
  unfold Draft.home
  cases hmove : p.draft.remap.get? a with
  | none =>
    simp only [hmove] at leads
    exact ⟨fits.bounded.sources source mem a leads.1, source, mem, leads.1⟩
  | some enclosing =>
    simp only [hmove] at leads
    exact ⟨(fits.moved a enclosing hmove).1, source, mem, leads.1⟩

/-- Whether the rows of a source are all there is settled when it is joined. -/
theorem keepsRows_extends (fits : p.Fits schema start) (grown : p.Extends q) {a : TableAlias}
    {source : Source} (mem : source ∈ p.draft.sources start) (named : source.alias? = some a) :
    q.draft.KeepsRows start a ↔ p.draft.KeepsRows start a := by
  obtain ⟨more, hmore, fresh⟩ := grown.joins
  have le := fits.bounded.sources source mem a named
  unfold Draft.KeepsRows
  rw [hmore]
  constructor
  · rintro (h | ⟨join, hjoin, same, inner⟩)
    · exact .inl h
    · rcases List.mem_append.mp hjoin with hjoin | hjoin
      · exact .inr ⟨join, hjoin, same, inner⟩
      · exact absurd (fresh join hjoin a same) (Nat.not_lt.mpr le)
  · rintro (h | ⟨join, hjoin, same, inner⟩)
    · exact .inl h
    · exact .inr ⟨join, List.mem_append_left _ hjoin, same, inner⟩

/-- Whether the rows of a reference's table are all there is settled when it resolves. -/
theorem keepsRows_home_extends (fits : p.Fits schema start) (grown : p.Extends q) {c : Column}
    {a : TableAlias} (resolves : p.draft.remap.Resolves (p.draft.sources start) c)
    (named : c.alias? = some a) :
    q.draft.KeepsRows start (q.draft.home a) ↔ p.draft.KeepsRows start (p.draft.home a) := by
  obtain ⟨le, source, mem, same⟩ := fits.home_of_resolves resolves named
  have home : q.draft.home a = p.draft.home a := by
    rw [Draft.home, grown.remap a le]
    rfl
  rw [home]
  exact fits.keepsRows_extends grown mem same

/-- Whether the rows of a known table are all there is settled when it becomes known. -/
theorem keeps_extends (fits : p.Fits schema start) (grown : p.Extends q) {t : Table}
    (known : p.draft.Knows schema start t) : q.Keeps start t ↔ p.Keeps start t := by
  obtain ⟨info, stores⟩ := known.stored
  obtain ⟨c, mem, -⟩ := stores.idColumn_ok
  exact fits.keepsRows_home_extends grown (fits.resolves_of_knows known mem)
    (Table.alias?_of_mem_columns mem)

/-- Later progress does not change whether a join is rooted. -/
theorem rootedIn_extends (fits : p.Fits schema start) (grown : p.Extends q) {join : Join}
    (mem : join ∈ p.draft.joins) :
    join.RootedIn q.draft start ↔ join.RootedIn p.draft start := by
  have resolves := (fits.resolves_join mem).1
  unfold Join.RootedIn
  constructor
  · intro h inner
    obtain ⟨a, ha, keeps⟩ := h inner
    exact ⟨a, ha, (fits.keepsRows_home_extends grown resolves ha).mp keeps⟩
  · intro h inner
    obtain ⟨a, ha, keeps⟩ := h inner
    exact ⟨a, ha, (fits.keepsRows_home_extends grown resolves ha).mpr keeps⟩

/-- **One more join** has to be rooted itself. -/
theorem rooted_addJoin (fits : p.Fits schema start) (grown : p.Extends q) {join : Join}
    (joins : q.draft.joins = p.draft.joins ++ [join]) :
    q.Rooted start ↔ p.Rooted start ∧ join.RootedIn q.draft start
      ∧ ∀ node ∈ join.source.nodes, node.Rooted := by
  constructor
  · intro rooted
    refine ⟨⟨fun old mem => ?_, fun old mem => ?_⟩, ?_, ?_⟩
    · exact (fits.rootedIn_extends grown mem).mp
        (rooted.joins old (by rw [joins]; exact List.mem_append_left _ mem))
    · exact rooted.inside old (by rw [joins]; exact List.mem_append_left _ mem)
    · exact rooted.joins join (by rw [joins]; simp)
    · exact rooted.inside join (by rw [joins]; simp)
  · rintro ⟨rooted, new, inside⟩
    refine ⟨fun other mem => ?_, fun other mem => ?_⟩
    · rw [joins, List.mem_append, List.mem_singleton] at mem
      rcases mem with mem | rfl
      · exact (fits.rootedIn_extends grown mem).mpr (rooted.joins other mem)
      · exact new
    · rw [joins, List.mem_append, List.mem_singleton] at mem
      rcases mem with mem | rfl
      · exact rooted.inside other mem
      · exact inside

end Progress.Fits

/-- What is selected or noted for the order does not matter for the joins. -/
theorem Progress.rooted_redraft {d : Draft} (joins : d.joins = p.draft.joins)
    (remap : d.remap = p.draft.remap) {names : Names} :
    Progress.Rooted start ⟨names, d⟩ ↔ p.Rooted start := by
  have same : ∀ join : Join, join.RootedIn d start ↔ join.RootedIn p.draft start := by
    intro join
    simp only [Join.RootedIn, Draft.KeepsRows, Draft.home, joins, remap]
  constructor
  · intro rooted
    refine ⟨fun join mem => (same join).mp ?_, fun join mem => ?_⟩
    · exact rooted.joins join (by rw [joins]; exact mem)
    · exact rooted.inside join (by rw [joins]; exact mem)
  · intro rooted
    refine ⟨fun join mem => (same join).mpr ?_, fun join mem => ?_⟩
    · exact rooted.joins join (by rw [← joins]; exact mem)
    · exact rooted.inside join (by rw [← joins]; exact mem)

/-- A query to which nothing has been joined is rooted. -/
theorem Progress.rooted_of_unjoined (unjoined : p.draft.joins = []) : p.Rooted start := by
  refine ⟨fun join mem => ?_, fun join mem => ?_⟩
  · rw [unjoined] at mem
    cases mem
  · rw [unjoined] at mem
    cases mem

/-- The rows of the table that a query starts from are all there. -/
theorem Progress.keeps_start {t : Table} (unmoved : p.draft.remap = Remap.empty) :
    p.Keeps (.table t) t := by
  left
  rw [Draft.home, unmoved]
  rfl

end Progress

/-! ### Following paths -/

namespace Compile

variable {schema : Schema} {start : Source} {p q : Progress} {source target : Table}

theorem Connects.joinsInner_iff {name : String} {key : ForeignKey} {outer inner : Column}
    (connects : Connects schema source name target key outer inner) :
    schema.joinsInner source.resourceType name = true ↔ joinKind key = .inner := by
  rw [Schema.joinsInner, connects.resolved]
  simp

/-- The rows of a joined table are all there if it is inner-joined. -/
theorem Reaches.keeps {name : String} (reaches : Reaches schema p source name target q)
    (fits : p.Fits schema start) (known : p.draft.Knows schema start source) :
    q.Keeps start target ↔ schema.joinsInner source.resourceType name = true := by
  obtain ⟨key, outer, inner, connects, mem⟩ := reaches.exists_join fits known
  obtain ⟨fits', -⟩ := reaches.fits fits known
  have placed : Source.table target ∈ q.draft.sources start :=
    List.mem_cons_of_mem _ (List.mem_map_of_mem mem)
  have home : q.draft.home target.tableAlias = target.tableAlias := by
    rw [Draft.home, fits'.get?_of_mem placed rfl]
    rfl
  -- No other source has the alias of the joined table.
  have apart : ((start :: q.draft.joins.map Join.source).map Source.alias?).Nodup := fits'.distinct
  rw [List.map_cons, List.nodup_cons, List.map_map] at apart
  rw [connects.joinsInner_iff, Progress.Keeps, home]
  constructor
  · rintro (same | ⟨other, hother, same, inner⟩)
    · refine absurd ?_ apart.1
      rw [same]
      exact List.mem_map.mpr ⟨_, mem, rfl⟩
    · have one := List.inj_on_of_nodup_map apart.2 hother mem same
      rw [one] at inner
      exact inner
  · intro inner
    exact .inr ⟨_, mem, rfl, inner⟩

/-- **Following a relationship** adds that an inner join has to start from a table whose rows are
all there. -/
theorem Reaches.rooted {name : String} (reaches : Reaches schema p source name target q)
    (fits : p.Fits schema start) (known : p.draft.Knows schema start source) :
    q.Rooted start ↔ p.Rooted start
      ∧ (schema.joinsInner source.resourceType name = true → p.Keeps start source) := by
  have grown := reaches.quiet.toExtends
  cases reaches with
  | again found =>
    obtain ⟨owner, key, outer, inner, owned, named, connects, mem⟩ := fits.joined _ _ _ found
    obtain rfl := fits.eq_of_alias owned known named
    refine ⟨fun rooted => ⟨rooted, fun joins => ?_⟩, fun h => h.1⟩
    obtain ⟨a, ha, keeps⟩ := rooted.joins _ mem (connects.joinsInner_iff.mp joins)
    rw [Table.alias?_of_mem_columns (connects.mem_columns known.stored).1] at ha
    cases ha
    exact keeps
  | @anew _ _ key outer inner connects fresh =>
    have named := Table.alias?_of_mem_columns (connects.mem_columns known.stored).1
    rw [fits.rooted_addJoin grown rfl]
    refine and_congr_right fun _ => ?_
    rw [connects.joinsInner_iff, ← fits.keeps_extends grown known]
    constructor
    · rintro ⟨new, -⟩ joins
      obtain ⟨a, ha, keeps⟩ := new joins
      rw [named] at ha
      cases ha
      exact keeps
    · intro keeps
      refine ⟨fun joins => ⟨source.tableAlias, named, keeps joins⟩, ?_⟩
      simp [Source.nodes]

/-- **Following a path** adds that it loses no rows. -/
theorem Walks.rooted {path : Path} (walks : Walks schema p source path target q)
    (fits : p.Fits schema start) (known : p.draft.Knows schema start source) {kept : Bool}
    (keeps : p.Keeps start source ↔ kept = true) :
    q.Rooted start ↔ p.Rooted start
      ∧ schema.keepsAlong kept source.resourceType path = true := by
  induction walks generalizing kept with
  | arrived => simp [Schema.keepsAlong]
  | @step p middle r source next target name rest relationship declared toOne reaches walks ih =>
    obtain ⟨key, outer, inner, connects, -⟩ := reaches.exists_join fits known
    obtain ⟨fits', known'⟩ := reaches.fits fits known
    -- The rest of the path starts from the joined table, which is there if it is inner-joined.
    rw [ih fits' known' (reaches.keeps fits known), reaches.rooted fits known,
      connects.resourceType_eq, keeps, Schema.keepsAlong, Bool.and_eq_true, and_assoc]
    refine and_congr_right fun _ => and_congr_left fun _ => ?_
    cases kept <;> simp

end Compile

/-! ### Finished queries -/

namespace Sql

theorem Entry.mem_allNodes {entries : List Entry} {node : Select} :
    node ∈ Entry.allNodes entries ↔ ∃ entry ∈ entries,
      node ∈ entry.source.nodes ∨ node ∈ Selector.allNodes entry.selectors := by
  induction entries with
  | nil => simp [Entry.allNodes]
  | cons entry rest ih =>
    obtain ⟨source, join?, selectors⟩ := entry
    simp [Entry.allNodes, ih, or_assoc]

/-- Columns contain no queries. -/
theorem Selector.allNodes_of_columns {selectors : List Selector}
    (columns : ∀ selector ∈ selectors, ∃ c rename?, selector = .column c rename?) :
    Selector.allNodes selectors = [] := by
  induction selectors with
  | nil => simp [Selector.allNodes]
  | cons selector rest ih =>
    obtain ⟨c, rename?, rfl⟩ := columns selector List.mem_cons_self
    have others := ih fun other mem => columns other (List.mem_cons_of_mem _ mem)
    simp [Selector.allNodes, Selector.nodes, others]

end Sql

section Finished

variable {schema : Schema} {start : Source} {p : Progress} {selectors : List Selector}
  {filter? : Option Condition} {order? : Option (List OrderTerm)} {limit? : Option Limit}
  {alias? : Option TableAlias}

/-- **A finished query is rooted if and only if its joins are.** -/
theorem Sql.Select.rooted_finished (fits : p.Fits schema start) :
    Select.Rooted ⟨p.draft.finishedEntries start selectors, filter?, order?, limit?, alias?⟩
      ↔ ∀ join ∈ p.draft.joins, join.RootedIn p.draft start := by
  constructor
  · intro rooted join mem inner
    -- The finished join refers to the source that the table of the outer column is part of now.
    obtain ⟨b, hb, led⟩ := (fits.resolves_join mem).1.led_alias fits.distinct
    refine ⟨b, hb, ?_⟩
    have listed : (⟨join.source, some (p.draft.remap.ledJoin (p.draft.sources start) join.on),
        p.draft.selectorsOf join.source⟩ : Entry) ∈ p.draft.finishedEntries start selectors :=
      List.mem_cons_of_mem _ (List.mem_map_of_mem mem)
    obtain ⟨root, hroot, a, named, same, joined⟩ := rooted _ listed _ rfl inner
    obtain rfl : (p.draft.remap.get? b).getD b = a := Option.some.inj (led.symm.trans same)
    rcases List.mem_cons.mp hroot with rfl | hroot
    · exact .inl named
    · obtain ⟨other, hother, rfl⟩ := List.mem_map.mp hroot
      exact .inr ⟨other, hother, named,
        joined (p.draft.remap.ledJoin (p.draft.sources start) other.on) rfl⟩
  · intro rooted entry mem on hon inner
    rcases List.mem_cons.mp mem with rfl | mem
    · cases hon
    · obtain ⟨join, hjoin, rfl⟩ := List.mem_map.mp mem
      cases hon
      obtain ⟨b, hb, led⟩ := (fits.resolves_join hjoin).1.led_alias fits.distinct
      obtain ⟨a, ha, keeps⟩ := rooted join hjoin inner
      rw [hb] at ha
      cases ha
      rcases keeps with named | ⟨other, hother, named, innerJoined⟩
      · refine ⟨_, List.mem_cons_self, _, named, led, ?_⟩
        intro joined hjoined
        cases hjoined
      · refine ⟨_, List.mem_cons_of_mem _ (List.mem_map_of_mem hother), _, named, led, ?_⟩
        intro joined hjoined
        cases hjoined
        exact innerJoined

/-- **All queries inside a finished query are rooted** if and only if its joins are, and all queries
inside its parts. -/
theorem Sql.Select.forall_nodes_finished (fits : p.Fits schema start)
    (plain : Selector.allNodes selectors = []) :
    (∀ node ∈ Select.nodes
        ⟨p.draft.finishedEntries start selectors, filter?, order?, limit?, alias?⟩, node.Rooted)
      ↔ p.Rooted start ∧ (∀ node ∈ start.nodes, node.Rooted)
        ∧ (∀ node ∈ Condition.optionNodes filter?, node.Rooted)
        ∧ ∀ node ∈ OrderTerm.optionNodes order?, node.Rooted := by
  have inside : ∀ node, node ∈ Entry.allNodes (p.draft.finishedEntries start selectors) ↔
      node ∈ start.nodes ∨ ∃ join ∈ p.draft.joins, node ∈ join.source.nodes := by
    intro node
    have columns : ∀ source, Selector.allNodes (p.draft.selectorsOf source) = [] := by
      intro source
      refine Selector.allNodes_of_columns fun selector mem => ?_
      obtain ⟨c, rename?, hc, -⟩ := fits.selectorsOf_visible source selector mem
      exact ⟨c, rename?, hc⟩
    rw [Entry.mem_allNodes]
    simp [Draft.finishedEntries, plain, columns]
  rw [Select.nodes, List.forall_mem_cons, Select.rooted_finished fits]
  simp only [List.mem_append, inside]
  constructor
  · rintro ⟨joins, all⟩
    refine ⟨⟨joins, fun join mem node hnode => ?_⟩, fun node mem => ?_, fun node mem => ?_,
      fun node mem => ?_⟩
    · exact all node (.inl (.inl (.inr ⟨join, mem, hnode⟩)))
    · exact all node (.inl (.inl (.inl mem)))
    · exact all node (.inl (.inr mem))
    · exact all node (.inr mem)
  · rintro ⟨rooted, first, restricted, ordered⟩
    refine ⟨rooted.joins, fun node mem => ?_⟩
    rcases mem with ((mem | ⟨join, hjoin, mem⟩) | mem) | mem
    · exact first node mem
    · exact rooted.inside join hjoin node mem
    · exact restricted node mem
    · exact ordered node mem

end Finished

namespace Compile

variable {schema : Schema} {target : Table} {last : Progress} {condition? : Option Condition}

theorem allNodes_shape (shape : QueryShape) (table : Table) :
    Selector.allNodes (shape.selectors table) = [] := by
  cases shape with
  | columns =>
    refine Selector.allNodes_of_columns fun selector mem => ?_
    obtain ⟨c, -, rfl⟩ := List.mem_map.mp mem
    exact ⟨c, none, rfl⟩
  | count => simp [QueryShape.selectors, Selector.allNodes, Selector.nodes]
  | one => simp [QueryShape.selectors, Selector.allNodes, Selector.nodes]

/-- The queries inside a query over a table. -/
theorem forall_nodes_plainQuery {shape : QueryShape} {alias? : Option TableAlias}
    (fits : last.Fits schema (.table target)) (unmoved : last.draft.remap = Remap.empty) :
    (∀ node ∈ Select.nodes
        { plainQuery target shape last.draft condition? with alias? := alias? }, node.Rooted)
      ↔ last.Rooted (.table target)
        ∧ ∀ node ∈ Condition.optionNodes condition?, node.Rooted := by
  have h := @Sql.Select.forall_nodes_finished _ _ _ _ condition? none none alias? fits
    (allNodes_shape shape target)
  rw [Draft.finishedEntries_of_unmoved unmoved] at h
  simp only [plainQuery]
  rw [h]
  simp [Source.nodes, OrderTerm.optionNodes]

/-- The queries inside a query over related rows. -/
theorem forall_nodes_relatedQuery {shape : QueryShape} {outer inner : Column}
    (fits : last.Fits schema (.table target)) (unmoved : last.draft.remap = Remap.empty) :
    (∀ node ∈ Select.nodes (relatedQuery target shape last.draft condition? outer inner),
        node.Rooted)
      ↔ last.Rooted (.table target)
        ∧ ∀ node ∈ Condition.optionNodes condition?, node.Rooted := by
  have key : ∀ node, node ∈ (Condition.columnsEqual outer inner).nodes ↔ False := by
    intro node
    simp [Condition.columnsEqual, Condition.nodes, Sql.Operand.nodes]
  have same : ∀ node, node ∈ Condition.optionNodes
      (relatedQuery target shape last.draft condition? outer inner).filter?
        ↔ node ∈ Condition.optionNodes condition? := by
    intro node
    cases condition? with
    | none =>
      simp only [relatedQuery, plainQuery, Select.restrict, Condition.optionNodes, key]
      simp
    | some existing =>
      simp only [relatedQuery, plainQuery, Select.restrict, Condition.optionNodes, Condition.all,
        Condition.mem_nodes_combine]
      constructor
      · rintro ⟨term, hterm, mem⟩
        rcases List.mem_pair.mp hterm with rfl | rfl
        · exact ((key node).mp mem).elim
        · exact mem
      · intro mem
        exact ⟨existing, by simp, mem⟩
  have h := @forall_nodes_plainQuery schema target last
    (relatedQuery target shape last.draft condition? outer inner).filter? shape none fits unmoved
  simp only [same] at h
  exact h

/-- The query that counts related rows contains no joins. -/
theorem rooted_relatedCount {outer inner : Column} :
    ∀ node ∈ Select.nodes (relatedQuery target .count Draft.empty none outer inner),
      node.Rooted := by
  have fits : Progress.Fits Schema.empty (.table target)
      ⟨⟨target.tableAlias.index, 0⟩, Draft.empty⟩ := .ofTable (Nat.le_refl _)
  refine (forall_nodes_relatedQuery fits rfl).mpr ⟨Progress.rooted_of_unjoined rfl, ?_⟩
  simp [Condition.optionNodes]

end Compile

/-! ### Filters -/

namespace Compile

variable {schema : Schema} {start : Source} {p q : Progress} {table : Table}

theorem FieldAt.rooted {path : Path} {c : Column} {info : FieldColumn}
    (at_ : FieldAt schema p table path c info q) (fits : p.Fits schema start)
    (known : p.draft.Knows schema start table) {kept : Bool}
    (keeps : p.Keeps start table ↔ kept = true) :
    q.Rooted start ↔ p.Rooted start
      ∧ schema.keepsAlong kept table.resourceType path.dropLast = true := by
  obtain ⟨name, owner, -, walks, -, -⟩ := at_
  exact walks.rooted fits known keeps

/-- A list of values contains no queries. -/
theorem nodes_of_mem_anyTerms {c : Column} {values : List Sql.Parameter} {withNull : Bool}
    {term : Condition} (mem : term ∈ anyTerms c values withNull) : term.nodes = [] := by
  rcases List.mem_append.mp mem with mem | mem
  · split at mem
    · cases mem
    · obtain rfl := List.mem_singleton.mp mem
      unfold Condition.equalsAny
      split
      · simp [Condition.equals, Condition.nodes, Sql.Operand.nodes]
      · simp [Condition.nodes]
  · split at mem
    · obtain rfl := List.mem_singleton.mp mem
      simp [Condition.isNull, Condition.nodes, Sql.Operand.nodes]
    · cases mem

theorem CountAt.rooted {path : Path} {select : Select}
    (at_ : CountAt schema p table path select q) (fits : p.Fits schema start)
    (known : p.draft.Knows schema start table) {kept : Bool}
    (keeps : p.Keeps start table ↔ kept = true) :
    (q.Rooted start ↔ p.Rooted start
        ∧ schema.keepsAlong kept table.resourceType path.dropLast = true)
      ∧ ∀ node ∈ select.nodes, node.Rooted := by
  obtain ⟨owner, name, r, target, key, outer, inner, many, -, -, rfl, rfl⟩ := at_
  refine ⟨?_, rooted_relatedCount⟩
  rw [← many.2.1.rooted fits known keeps]
  exact Progress.rooted_redraft rfl rfl

theorem Pending.rooted {e : Expression} {pending : PendingOperand}
    (side : Pending schema table p e pending q) (fits : p.Fits schema start)
    (known : p.draft.Knows schema start table) (keeps : p.Keeps start table) :
    q.Rooted start ↔ p.Rooted start ∧ e.keeps schema table.resourceType = true := by
  have always : p.Keeps start table ↔ true = true := by simp [keeps]
  cases side with
  | field at_ => exact at_.rooted fits known always
  | count at_ => exact (at_.rooted fits known always).1
  | constant => simp [Expression.keeps]
  | nullConstant => simp [Expression.keeps]
  | null => simp [Expression.keeps]

/-- The queries inside a side of a comparison count related rows. -/
theorem Pending.rooted_nodes {e : Expression} {pending : PendingOperand} {type : OperandType}
    {operand : Sql.Operand} (side : Pending schema table p e pending q)
    (finishes : Finishes schema type pending operand) :
    ∀ node ∈ operand.nodes, node.Rooted := by
  cases side with
  | field =>
    cases finishes
    simp [Sql.Operand.nodes]
  | count at_ =>
    cases finishes
    obtain ⟨owner, name, r, target, key, outer, inner, -, -, -, rfl, -⟩ := at_
    rw [Sql.Operand.nodes]
    exact rooted_relatedCount
  | constant =>
    cases finishes
    simp [Sql.Operand.nodes]
  | nullConstant =>
    cases finishes
    simp [Sql.Operand.nodes]
  | null =>
    cases finishes
    simp [Sql.Operand.nodes]

theorem Compares.rooted {kind : ComparisonKind} {left right : Expression} {condition : Condition}
    (compares : Compares schema table kind left right p condition q)
    (fits : p.Fits schema start) (known : p.draft.Knows schema start table)
    (keeps : p.Keeps start table) :
    (q.Rooted start ∧ ∀ node ∈ condition.nodes, node.Rooted) ↔ p.Rooted start
      ∧ (left.keeps schema table.resourceType && right.keeps schema table.resourceType) = true := by
  obtain ⟨l, r, type, lo, ro, middle, last, parameters, hl, hr, -, fl, fr, -, rfl, rfl⟩ := compares
  have fits' := hl.fits fits known
  have known' := fits.knows_extends hl.quiet.toExtends known
  have keeps' := (fits.keeps_extends hl.quiet.toExtends known).mpr keeps
  have inside : ∀ node ∈ (Condition.comparison lo (comparisonOp kind) ro).nodes, node.Rooted := by
    intro node mem
    rw [Condition.nodes, List.mem_append] at mem
    rcases mem with mem | mem
    · exact hl.rooted_nodes fl node mem
    · exact hr.rooted_nodes fr node mem
  have same : Progress.Rooted start ⟨⟨last.names.tables, parameters⟩, last.draft⟩
      ↔ last.Rooted start := Progress.rooted_redraft rfl rfl
  rw [same, and_iff_left inside, hr.rooted fits' known' keeps', hl.rooted fits known keeps,
    Bool.and_eq_true, and_assoc]

end Compile

namespace Filter

variable {schema : Schema}

mutual

/-- **A filter adds that it loses no rows**, here and in the queries inside its condition. -/
theorem Becomes.rooted {start : Source} {table : Table} {p q : Progress} {condition : Condition} :
    (filter : Filter) → filter.Becomes schema table p condition q → p.Fits schema start →
      p.draft.Knows schema start table → p.Keeps start table →
      ((q.Rooted start ∧ ∀ node ∈ condition.nodes, node.Rooted)
        ↔ p.Rooted start ∧ filter.keeps schema table.resourceType = true)
  | .comparison _ _ _, h, fits, known, keeps => by
    simp only [Becomes] at h
    rw [Filter.keeps]
    exact h.rooted fits known keeps
  | .and terms, h, fits, known, keeps => by
    simp only [Becomes] at h
    obtain ⟨conditions, h, rfl⟩ := h
    rw [Filter.keeps, ← AllBecome.rooted terms h fits known keeps]
    simp only [Condition.all, Condition.mem_nodes_combine, Condition.mem_allNodes]
  | .or terms, h, fits, known, keeps => by
    simp only [Becomes] at h
    obtain ⟨conditions, h, rfl⟩ := h
    rw [Filter.keeps, ← AllBecome.rooted terms h fits known keeps]
    simp only [Condition.any, Condition.mem_nodes_combine, Condition.mem_allNodes]
  | .not term, h, fits, known, keeps => by
    simp only [Becomes] at h
    obtain ⟨inner, h, rfl⟩ := h
    rw [Filter.keeps, Condition.nodes]
    exact Becomes.rooted term h fits known keeps
  | .textMatch _ _ _, h, fits, known, keeps => by
    simp only [Becomes] at h
    obtain ⟨c, info, at_, rfl⟩ := h
    rw [Filter.keeps, ← at_.rooted fits known (by simp [keeps])]
    simp [Condition.nodes]
  | .any _ values, h, fits, known, keeps => by
    simp only [Becomes] at h
    obtain ⟨c, info, given, last, parameters, at_, -, rfl, rfl⟩ := h
    have inside : ∀ node ∈ (Condition.any
        (Compile.anyTerms c given (values.any (fun v => v = .null)))).nodes, node.Rooted := by
      intro node mem
      obtain ⟨term, hterm, mem⟩ := Condition.mem_nodes_combine.mp mem
      have plain := Compile.nodes_of_mem_anyTerms hterm
      rw [plain] at mem
      cases mem
    rw [Filter.keeps, ← at_.rooted fits known (by simp [keeps]), and_iff_left inside]
    exact Progress.rooted_redraft rfl rfl
  | .has relationship filter?, h, fits, known, keeps => by
    -- The query inside starts anew from the related table, whose rows are all there.
    simp only [Becomes] at h
    obtain ⟨owner, name, r, target, key, outer, inner, condition?, last, many, connects, named,
      below, rfl, rfl⟩ := h
    have leads := many.resourceType_eq connects fits known
    obtain ⟨started, own⟩ := connects.starts named r.names.parameters
    have last_fits := OptionBecomes.fits below started own
    have unmoved : last.draft.remap = Remap.empty := (OptionBecomes.quiet filter? below).remap
    have path := many.2.1.rooted fits known (by simp [keeps] : _ ↔ true = true)
    have inside := OptionBecomes.rooted filter? below started own (Progress.keeps_start rfl)
    have unjoined : Progress.Rooted (.table target)
        ⟨⟨r.names.tables + 1, r.names.parameters⟩, Draft.empty⟩ := Progress.rooted_of_unjoined rfl
    rw [and_iff_right unjoined, ← Compile.forall_nodes_relatedQuery last_fits unmoved] at inside
    rw [Filter.keeps, Bool.and_eq_true, ← leads, ← and_assoc, ← path, ← inside, Condition.nodes]
    refine and_congr_left fun _ => ?_
    exact Progress.rooted_redraft rfl rfl
  | .isType _ _, h, _, _, _ => by
    simp only [Becomes] at h

theorem AllBecome.rooted {start : Source} {table : Table} {p q : Progress}
    {conditions : List Condition} :
    (terms : List Filter) → AllBecome schema table terms p conditions q → p.Fits schema start →
      p.draft.Knows schema start table → p.Keeps start table →
      ((q.Rooted start ∧ ∀ node ∈ Condition.allNodes conditions, node.Rooted)
        ↔ p.Rooted start ∧ allKeep schema table.resourceType terms = true)
  | [], h, _, _, _ => by
    simp only [AllBecome] at h
    obtain ⟨rfl, rfl⟩ := h
    simp [Condition.allNodes, allKeep]
  | term :: rest, h, fits, known, keeps => by
    simp only [AllBecome] at h
    obtain ⟨condition, others, middle, first, after, rfl⟩ := h
    have grown := (Becomes.quiet term first).toExtends
    have ih := AllBecome.rooted rest after (Becomes.fits term first fits known)
      (fits.knows_extends grown known) ((fits.keeps_extends grown known).mpr keeps)
    rw [allKeep, Bool.and_eq_true, ← and_assoc, ← Becomes.rooted term first fits known keeps,
      and_right_comm, ← ih, Condition.allNodes]
    simp only [List.forall_mem_append]
    rw [and_right_comm, and_assoc]

theorem OptionBecomes.rooted {start : Source} {table : Table} {p q : Progress}
    {condition? : Option Condition} :
    (filter? : Option Filter) → OptionBecomes schema table filter? p condition? q →
      p.Fits schema start → p.draft.Knows schema start table → p.Keeps start table →
      ((q.Rooted start ∧ ∀ node ∈ Condition.optionNodes condition?, node.Rooted)
        ↔ p.Rooted start ∧ optionKeeps schema table.resourceType filter? = true)
  | none, h, _, _, _ => by
    simp only [OptionBecomes] at h
    obtain ⟨rfl, rfl⟩ := h
    simp [Condition.optionNodes, optionKeeps]
  | some filter, h, fits, known, keeps => by
    simp only [OptionBecomes] at h
    obtain ⟨condition, h, rfl⟩ := h
    exact Becomes.rooted filter h fits known keeps

end

/-- A filter on the table that a query starts from needs nothing else. -/
theorem OptionBecomes.rooted_start {info : ResourceType} {table : Table} {names : Names}
    {q : Progress} {condition? : Option Condition} {filter? : Option Filter}
    (h : OptionBecomes schema table filter? ⟨names, Draft.empty⟩ condition? q)
    (stores : schema.Stores info table) (le : table.tableAlias.index ≤ names.tables) :
    (q.Rooted (.table table) ∧ ∀ node ∈ Condition.optionNodes condition?, node.Rooted)
      ↔ optionKeeps schema table.resourceType filter? = true := by
  rw [OptionBecomes.rooted filter? h (.ofTable le) (Draft.knows_start stores)
    (Progress.keeps_start rfl)]
  exact and_iff_right (Progress.rooted_of_unjoined rfl)

/-- **A query over a table is rooted, and all queries inside it are,** if and only if its filter
loses no rows. -/
theorem OptionBecomes.rooted_plainQuery {info : ResourceType} {table : Table} {names : Names}
    {q : Progress} {condition? : Option Condition} {filter? : Option Filter} {shape : QueryShape}
    {alias? : Option TableAlias}
    (h : OptionBecomes schema table filter? ⟨names, Draft.empty⟩ condition? q)
    (stores : schema.Stores info table) (le : table.tableAlias.index ≤ names.tables) :
    (∀ node ∈ Select.nodes
        { Compile.plainQuery table shape q.draft condition? with alias? := alias? }, node.Rooted)
      ↔ optionKeeps schema table.resourceType filter? = true := by
  rw [← h.rooted_start stores le]
  exact Compile.forall_nodes_plainQuery (h.fits (.ofTable le) (Draft.knows_start stores))
    (OptionBecomes.quiet filter? h).remap

end Filter

end ResourceQuery
