import Mathlib.Data.List.Forall2
import ResourceQuery.Proofs.Sql.MoveChains
import ResourceQuery.Proofs.Sql.Scoping

/-!
# Repaired references

Repairing a query redirects references in join conditions, conditions and orders, at every depth.
This file lists those references with what may be named where they stand, says what repair makes of
each of them, and that a repaired query needs no further repair.

## Main Definitions

- `Select.references`: the references of a query, each with the aliases that it may name.
- `Select.skeleton`: what is left of a query without its references.
- `Reference.Repaired`: a reference was kept if it names a visible source, and else redirected to a
  visible source that its table was moved into.

## Main Statements

- `Remap.redirect_repaired`: what repair makes of one reference.
- `Select.repairs`: what repair makes of a query, in any scope.
- `Select.repair_sound`: repair changes references only, makes all of them visible, and changes
  nothing the second time.

## Design Notes

Nothing is asked of the query.  Select lists are no references here: repair leaves them alone, and
so they are part of the skeleton.
-/

namespace ResourceQuery.Sql

/-! ### References and what is left without them -/

/-- A reference to a column, and the aliases that may be named where it stands. -/
structure Reference where
  visible : List TableAlias
  column : Column

/-- The place of a reference. -/
def Column.blank : Column := .inTable "" .scalar none

/-- A join condition without its references. -/
def JoinOn.skeleton (on : JoinOn) : JoinOn :=
  { on with outer := .blank, inner := .blank }

/-- The references of a join condition. -/
def JoinOn.references (visible : List TableAlias) (on : JoinOn) : List Reference :=
  [⟨visible, on.outer⟩, ⟨visible, on.inner⟩]

/-- The references of the join conditions of a query. -/
def Entry.joinReferences (visible : List TableAlias) (entries : List Entry) : List Reference :=
  entries.flatMap (fun entry => entry.join?.toList.flatMap (JoinOn.references visible))

/-- The aliases that the sources of a query declare. -/
def Entry.aliases (entries : List Entry) : List TableAlias :=
  entries.flatMap (fun entry => entry.source.alias?.toList)

mutual

/-- **The references of a query** in join conditions, conditions and orders, at every depth.  A
query sees what is visible around it, and its own sources. -/
def Select.references (visible : List TableAlias) : Select → List Reference
  | ⟨entries, filter?, order?, _, _⟩ =>
    Entry.sourceReferences visible entries
      ++ Entry.joinReferences (visible ++ Entry.aliases entries) entries
      ++ Condition.optionReferences (visible ++ Entry.aliases entries) filter?
      ++ OrderTerm.optionReferences (visible ++ Entry.aliases entries) order?

/-- The references inside the sources of a query, each of which sees the sources before it. -/
def Entry.sourceReferences (visible : List TableAlias) : List Entry → List Reference
  | [] => []
  | ⟨source, _, _⟩ :: rest =>
    Source.references visible source
      ++ Entry.sourceReferences (visible ++ source.alias?.toList) rest

/-- The references inside a source. -/
def Source.references (visible : List TableAlias) : Source → List Reference
  | .table _ => []
  | .derived select => Select.references visible select

/-- The references of a condition that may be absent. -/
def Condition.optionReferences (visible : List TableAlias) : Option Condition → List Reference
  | none => []
  | some condition => Condition.references visible condition

/-- The references of a condition. -/
def Condition.references (visible : List TableAlias) : Condition → List Reference
  | .comparison left _ right => Operand.references visible left ++ Operand.references visible right
  | .logical _ terms => Condition.allReferences visible terms
  | .not term => Condition.references visible term
  | .like column _ _ => [⟨visible, column⟩]
  | .isIn column _ => [⟨visible, column⟩]
  | .nonempty select => Select.references visible select

/-- The references of several conditions. -/
def Condition.allReferences (visible : List TableAlias) : List Condition → List Reference
  | [] => []
  | term :: rest => Condition.references visible term ++ Condition.allReferences visible rest

/-- The references of a side of a comparison. -/
def Operand.references (visible : List TableAlias) : Operand → List Reference
  | .column column => [⟨visible, column⟩]
  | .parameter _ => []
  | .null => []
  | .count select => Select.references visible select

/-- The references of an order that may be absent. -/
def OrderTerm.optionReferences (visible : List TableAlias) :
    Option (List OrderTerm) → List Reference
  | none => []
  | some terms => OrderTerm.allReferences visible terms

/-- The references of the criteria of an order. -/
def OrderTerm.allReferences (visible : List TableAlias) : List OrderTerm → List Reference
  | [] => []
  | ⟨target, _⟩ :: rest =>
    OrderTarget.references visible target ++ OrderTerm.allReferences visible rest

/-- The references of what rows are ordered by. -/
def OrderTarget.references (visible : List TableAlias) : OrderTarget → List Reference
  | .column column => [⟨visible, column⟩]
  | .count select => Select.references visible select

end

mutual

/-- **What is left of a query without its references**: its shape, select lists, aliases, limits,
operators, texts and parameters. -/
def Select.skeleton : Select → Select
  | ⟨entries, filter?, order?, limit?, alias?⟩ =>
    ⟨Entry.skeletons entries, Condition.optionSkeleton filter?, OrderTerm.optionSkeleton order?,
      limit?, alias?⟩

/-- The sources of a query without the references inside them and in their join conditions. -/
def Entry.skeletons : List Entry → List Entry
  | [] => []
  | ⟨source, join?, selectors⟩ :: rest =>
    ⟨Source.skeleton source, join?.map JoinOn.skeleton, selectors⟩ :: Entry.skeletons rest

/-- A source without the references inside it. -/
def Source.skeleton : Source → Source
  | .table t => .table t
  | .derived select => .derived (Select.skeleton select)

/-- A condition that may be absent, without its references. -/
def Condition.optionSkeleton : Option Condition → Option Condition
  | none => none
  | some condition => some (Condition.skeleton condition)

/-- A condition without its references. -/
def Condition.skeleton : Condition → Condition
  | .comparison left op right => .comparison (Operand.skeleton left) op (Operand.skeleton right)
  | .logical op terms => .logical op (Condition.skeletons terms)
  | .not term => .not (Condition.skeleton term)
  | .like _ text kind => .like .blank text kind
  | .isIn _ values => .isIn .blank values
  | .nonempty select => .nonempty (Select.skeleton select)

/-- Several conditions without their references. -/
def Condition.skeletons : List Condition → List Condition
  | [] => []
  | term :: rest => Condition.skeleton term :: Condition.skeletons rest

/-- A side of a comparison without its references. -/
def Operand.skeleton : Operand → Operand
  | .column _ => .column .blank
  | .parameter p => .parameter p
  | .null => .null
  | .count select => .count (Select.skeleton select)

/-- An order that may be absent, without its references. -/
def OrderTerm.optionSkeleton : Option (List OrderTerm) → Option (List OrderTerm)
  | none => none
  | some terms => some (OrderTerm.skeletons terms)

/-- The criteria of an order without their references. -/
def OrderTerm.skeletons : List OrderTerm → List OrderTerm
  | [] => []
  | ⟨target, descending⟩ :: rest =>
    ⟨OrderTarget.skeleton target, descending⟩ :: OrderTerm.skeletons rest

/-- What rows are ordered by, without its references. -/
def OrderTarget.skeleton : OrderTarget → OrderTarget
  | .column _ => .column .blank
  | .count select => .count (Select.skeleton select)

end

/-! ### What repair makes of a reference -/

namespace Reference

/-- A reference names a visible source, if it names any. -/
def IsVisible (r : Reference) : Prop :=
  ∀ a, r.column.alias? = some a → a ∈ r.visible

/-- A reference names a column of a table by way of a visible source that the table was moved into,
which selects that column. -/
def Redirects (m : Remap) (old : Reference) (stale : TableAlias) (column : Column) : Prop :=
  ∃ enclosing inner rename?, column = .inSelect inner rename? (some enclosing)
    ∧ enclosing ∈ old.visible
    ∧ Relation.TransGen (fun former next => m.get? former = some next) stale enclosing
    ∧ inner.refersTo old.column.name (some stale) = true

/-- **What repair makes of a reference.**  One without alias, or to a visible source, is kept; any
other is redirected. -/
def Repaired (m : Remap) (old new : Reference) : Prop :=
  new.visible = old.visible
    ∧ (old.IsVisible → new.column = old.column)
    ∧ ∀ stale, old.column.alias? = some stale → stale ∉ old.visible →
      Redirects m old stale new.column

theorem Repaired.isVisible {m : Remap} {old new : Reference} (repaired : Repaired m old new) :
    new.IsVisible := by
  obtain ⟨visible, kept, redirected⟩ := repaired
  by_cases h : old.IsVisible
  · rw [IsVisible, visible, kept h]
    exact h
  · simp only [IsVisible, not_forall] at h
    obtain ⟨stale, named, hidden⟩ := h
    obtain ⟨enclosing, inner, rename?, column, mem, -, -⟩ := redirected stale named hidden
    intro a ha
    rw [column] at ha
    cases ha
    rw [visible]
    exact mem

/-- Repaired references name visible sources. -/
theorem isVisible_of_repaired {m : Remap} {old new : List Reference}
    (repaired : List.Forall₂ (Repaired m) old new) : ∀ r ∈ new, r.IsVisible := by
  induction repaired with
  | nil => simp
  | cons first _ ih => exact List.forall_mem_cons.mpr ⟨first.isVisible, ih⟩

end Reference

/-! ### Scopes -/

namespace Scope

/-- The aliases that may be named in a scope are the given ones. -/
def Names (scope : Scope) (visible : List TableAlias) : Prop :=
  ∀ a, (scope.lookup a).isSome ↔ a ∈ visible

/-- Every source is found under its own alias. -/
def Filed (scope : Scope) : Prop :=
  ∀ a source, scope.lookup a = some source → source.alias? = some a

theorem names_empty : Scope.empty.Names [] := by
  intro a
  simp [Scope.empty, Scope.lookup]

theorem filed_empty : Scope.empty.Filed := by
  intro a source h
  simp [Scope.empty, Scope.lookup] at h

theorem Names.declare {scope : Scope} {visible : List TableAlias} (names : scope.Names visible)
    (source : Source) : (scope.declare source).Names (visible ++ source.alias?.toList) := by
  intro a
  rw [Scope.lookup_declare, List.mem_append, Option.mem_toList]
  split
  · rename_i same
    simp [same]
  · rename_i other
    rw [names a]
    exact ⟨.inl, fun h => h.resolve_right other⟩

theorem Names.declareAll {scope : Scope} {visible : List TableAlias} (names : scope.Names visible)
    (entries : List Entry) :
    (scope.declareAll (entries.map Entry.source)).Names (visible ++ Entry.aliases entries) := by
  induction entries generalizing scope visible with
  | nil =>
    rw [Entry.aliases, List.flatMap_nil, List.append_nil]
    exact names
  | cons entry rest ih =>
    rw [Entry.aliases, List.flatMap_cons, ← List.append_assoc]
    exact ih (names.declare entry.source)

theorem Filed.declare {scope : Scope} (filed : scope.Filed) (source : Source) :
    (scope.declare source).Filed := by
  intro a found h
  rw [Scope.lookup_declare] at h
  split at h
  · rename_i same
    cases h
    exact same
  · exact filed a found h

theorem Filed.declareAll {scope : Scope} (filed : scope.Filed) (sources : List Source) :
    (scope.declareAll sources).Filed := by
  induction sources generalizing scope with
  | nil => exact filed
  | cons source rest ih => exact ih (filed.declare source)

end Scope

namespace Remap

variable {m : Remap} {scope : Scope} {visible : List TableAlias}

/-- **Following moves** leads to a source that the table was moved into. -/
theorem exists_of_follow? {name : String} {stale : TableAlias} {steps : Nat} {former : TableAlias}
    {column : Column} (h : m.follow? scope name stale steps former = some column) :
    ∃ enclosing, Relation.TransGen (fun a b => m.get? a = some b) former enclosing
      ∧ provided? scope name stale enclosing = some column := by
  obtain ⟨further, -, first⟩ := follow?_eq_some_iff.mp h
  obtain ⟨enclosing, source, led, shown, provides⟩ := first.provides
  exact ⟨enclosing, transGen_iff_after?.mpr ⟨further, led⟩,
    Option.bind_eq_some_iff.mpr ⟨source, shown, provides⟩⟩

/-- A source provides a column of a hidden table only if it is a derived table that selects it. -/
theorem exists_of_provided? (names : scope.Names visible) (filed : scope.Filed) {name : String}
    {stale enclosing : TableAlias} {column : Column} (hidden : stale ∉ visible)
    (h : provided? scope name stale enclosing = some column) :
    enclosing ∈ visible ∧ ∃ inner rename?, column = .inSelect inner rename? (some enclosing)
      ∧ inner.refersTo name (some stale) = true := by
  obtain ⟨source, found, provides⟩ := Option.bind_eq_some_iff.mp h
  have shown : enclosing ∈ visible := (names enclosing).mp (by rw [found]; rfl)
  have named := filed enclosing source found
  refine ⟨shown, ?_⟩
  cases source with
  | table t =>
    -- A table provides its own columns only, and it is not hidden.
    cases named
    have same : stale = t.tableAlias := by
      by_contra other
      simp [Source.findColumn?, other] at provides
    exact absurd (same ▸ shown) hidden
  | derived s =>
    obtain ⟨selected, chosen, rfl⟩ := Option.map_eq_some_iff.mp provides
    have refers := List.find?_some chosen
    simp only [Select.provides, Option.isNone_some, Bool.and_false, Bool.false_or] at refers
    exact ⟨selected.1, selected.2, congrArg _ named, refers⟩

/-- **What repair makes of one reference.** -/
theorem redirect_repaired (names : scope.Names visible) (filed : scope.Filed) {c c' : Column}
    (h : m.redirect scope c = .ok c') : Reference.Repaired m ⟨visible, c⟩ ⟨visible, c'⟩ := by
  rw [redirect] at h
  split at h
  · rename_i unnamed
    cases h
    refine ⟨rfl, fun _ => rfl, fun stale named _ => ?_⟩
    rw [show c.alias? = some stale from named] at unnamed
    cases unnamed
  · rename_i stale named
    split at h
    · rename_i shown
      cases h
      refine ⟨rfl, fun _ => rfl, fun other named' hidden => ?_⟩
      rw [show c.alias? = some other from named'] at named
      cases named
      exact absurd ((names _).mp shown) hidden
    · rename_i hidden
      have hidden : stale ∉ visible := fun mem => hidden ((names stale).mpr mem)
      split at h
      · rename_i found followed
        cases h
        refine ⟨rfl, fun shown => absurd (shown stale named) hidden, fun other named' _ => ?_⟩
        rw [show c.alias? = some other from named'] at named
        cases named
        obtain ⟨enclosing, reached, provides⟩ := exists_of_follow? followed
        obtain ⟨mem, inner, rename?, same, refers⟩ :=
          exists_of_provided? names filed hidden provides
        exact ⟨enclosing, inner, rename?, same, mem, reached, refers⟩
      · cases h

/-- A reference that is visible is kept. -/
theorem redirect_of_isVisible (m : Remap) (names : scope.Names visible) {c : Column}
    (shown : Reference.IsVisible ⟨visible, c⟩) : m.redirect scope c = .ok c := by
  rw [redirect]
  split
  · rfl
  · rename_i a named
    rw [if_pos ((names a).mpr (shown a named))]

end Remap

/-! ### What repair makes of a query -/

theorem exists_of_bind_ok {ε α β : Type} {first : Except ε α} {next : α → Except ε β} {b : β}
    (h : first >>= next = .ok b) : ∃ a, first = .ok a ∧ next a = .ok b := by
  cases first with
  | error e => cases h
  | ok a => exact ⟨a, rfl, h⟩

/-- **What repair makes of a part of a query** that stands where some aliases may be named: it
changes only references, repairs each of them, and changes nothing the second time. -/
structure Repairs {α : Type} (m : Remap) (visible : List TableAlias) (skeleton : α → α)
    (references : List TableAlias → α → List Reference)
    (redirect : Scope → α → Except TreeError α) (old new : α) : Prop where
  skeleton_eq : skeleton new = skeleton old
  repaired : List.Forall₂ (Reference.Repaired m) (references visible old) (references visible new)
  settled : ∀ scope : Scope, scope.Names visible → redirect scope new = .ok new

namespace Repairs

section

variable {α β γ : Type} {m : Remap} {visible : List TableAlias} {scope : Scope}
  {skeleton : α → α} {references : List TableAlias → α → List Reference}
  {redirect : Scope → α → Except TreeError α}

/-- A part without references is left alone. -/
theorem unchanged {old new : α} (h : redirect scope old = .ok new)
    (none_ : references visible old = []) (same : ∀ scope, redirect scope old = .ok old) :
    Repairs m visible skeleton references redirect old new := by
  rw [same] at h
  cases h
  exact ⟨rfl, by rw [none_]; exact .nil, fun scope _ => same scope⟩

/-- A part that is a single reference is repaired as that reference is. -/
theorem reference (build : Column → α) {c : Column} {new : α} (names : scope.Names visible)
    (filed : scope.Filed) (h : redirect scope (build c) = .ok new)
    (blank : ∀ c c', skeleton (build c) = skeleton (build c'))
    (single : ∀ c, references visible (build c) = [⟨visible, c⟩])
    (steps : ∀ scope c, redirect scope (build c) = m.redirect scope c >>= fun c => pure (build c)) :
    Repairs m visible skeleton references redirect (build c) new := by
  rw [steps] at h
  obtain ⟨c', redirected, h⟩ := exists_of_bind_ok h
  cases h
  have repaired := Remap.redirect_repaired names filed redirected
  refine ⟨blank _ _, ?_, fun scope names => ?_⟩
  · rw [single, single]
    exact .cons repaired .nil
  · rw [steps, m.redirect_of_isVisible names repaired.isVisible]
    rfl

/-- A part with one part inside it is repaired as that part is. -/
theorem inside {skeleton' : β → β} {references' : List TableAlias → β → List Reference}
    {redirect' : Scope → β → Except TreeError β} (build : α → β) {old : α} {new : β}
    (part : ∀ {new}, redirect scope old = .ok new →
      Repairs m visible skeleton references redirect old new)
    (h : redirect' scope (build old) = .ok new)
    (shape : ∀ a, skeleton' (build a) = build (skeleton a))
    (same : ∀ a, references' visible (build a) = references visible a)
    (steps : ∀ scope a, redirect' scope (build a) = redirect scope a >>= fun a => pure (build a)) :
    Repairs m visible skeleton' references' redirect' (build old) new := by
  rw [steps] at h
  obtain ⟨a, redirected, h⟩ := exists_of_bind_ok h
  cases h
  have repaired := part redirected
  refine ⟨?_, ?_, fun scope names => ?_⟩
  · rw [shape, shape, repaired.skeleton_eq]
  · rw [same, same]
    exact repaired.repaired
  · rw [steps, repaired.settled scope names]
    rfl

/-- A part with two parts inside it is repaired as they are, one after the other. -/
theorem both {skeleton' : β → β} {references' : List TableAlias → β → List Reference}
    {redirect' : Scope → β → Except TreeError β}
    {skeleton'' : γ → γ} {references'' : List TableAlias → γ → List Reference}
    {redirect'' : Scope → γ → Except TreeError γ} (build : α → β → γ) {left : α} {right : β}
    {new : γ}
    (first : ∀ {new}, redirect scope left = .ok new →
      Repairs m visible skeleton references redirect left new)
    (second : ∀ {new}, redirect' scope right = .ok new →
      Repairs m visible skeleton' references' redirect' right new)
    (h : redirect'' scope (build left right) = .ok new)
    (shape : ∀ a b, skeleton'' (build a b) = build (skeleton a) (skeleton' b))
    (same : ∀ a b, references'' visible (build a b)
      = references visible a ++ references' visible b)
    (steps : ∀ scope a b, redirect'' scope (build a b)
      = redirect scope a >>= fun a => redirect' scope b >>= fun b => pure (build a b)) :
    Repairs m visible skeleton'' references'' redirect'' (build left right) new := by
  rw [steps] at h
  obtain ⟨a, hleft, h⟩ := exists_of_bind_ok h
  obtain ⟨b, hright, h⟩ := exists_of_bind_ok h
  cases h
  have one := first hleft
  have two := second hright
  refine ⟨?_, ?_, fun scope names => ?_⟩
  · rw [shape, shape, one.skeleton_eq, two.skeleton_eq]
  · rw [same, same]
    exact List.rel_append one.repaired two.repaired
  · rw [steps, one.settled scope names]
    show (redirect' scope b >>= fun b => pure (build a b)) = _
    rw [two.settled scope names]
    rfl

end

end Repairs

/-- **The references of a query are redirected in the scope of a stack that has entered it.** -/
theorem Entry.eq_current_enter {m : Remap} (stack : ScopeStack) {entries entries' : List Entry}
    {inside : Scope} (h : Entry.redirectSources m stack.current entries = .ok (entries', inside)) :
    inside = (stack.enter (entries'.map Entry.source)).current := by
  rw [ScopeStack.current_enter]
  generalize stack.current = scope at h ⊢
  induction entries generalizing scope entries' with
  | nil =>
    cases h
    rfl
  | cons entry rest ih =>
    obtain ⟨source, join?, selectors⟩ := entry
    obtain ⟨source', -, h⟩ := exists_of_bind_ok h
    obtain ⟨⟨rest', inside'⟩, others, h⟩ := exists_of_bind_ok h
    cases h
    exact ih (scope.declare source') others

/-- What repair makes of the sources of a query.  Join conditions are left for later, so the sources
stay repaired whatever becomes of them. -/
structure SourcesRepaired (m : Remap) (visible : List TableAlias) (old new : List Entry) :
    Prop where
  skeletons_eq : Entry.skeletons new = Entry.skeletons old
  joins_eq : new.map Entry.join? = old.map Entry.join?
  repaired : List.Forall₂ (Reference.Repaired m)
    (Entry.sourceReferences visible old) (Entry.sourceReferences visible new)
  settled : ∀ scope : Scope, scope.Names visible → ∀ other : List Entry,
    other.map Entry.source = new.map Entry.source →
      Entry.redirectSources m scope other = .ok (other, scope.declareAll (other.map Entry.source))

namespace Entry

theorem sourceReferences_congr {entries entries' : List Entry} (visible : List TableAlias)
    (same : entries'.map Entry.source = entries.map Entry.source) :
    sourceReferences visible entries' = sourceReferences visible entries := by
  induction entries generalizing entries' visible with
  | nil => rw [List.map_eq_nil_iff.mp same]
  | cons entry rest ih =>
    obtain ⟨entry', rest', rfl, first, others⟩ := List.map_eq_cons_iff.mp same
    obtain ⟨source, join?, selectors⟩ := entry
    obtain ⟨source', join?', selectors'⟩ := entry'
    cases first
    rw [sourceReferences, sourceReferences, ih _ others]

theorem aliases_eq_map (entries : List Entry) :
    aliases entries = (entries.map Entry.source).flatMap (fun source => source.alias?.toList) := by
  rw [aliases, List.flatMap_map]

theorem joinReferences_eq_map (visible : List TableAlias) (entries : List Entry) :
    joinReferences visible entries = (entries.map Entry.join?).flatMap
      (fun join? => join?.toList.flatMap (JoinOn.references visible)) := by
  rw [joinReferences, List.flatMap_map]

theorem flatMap_selectors_skeletons (entries : List Entry) :
    (skeletons entries).flatMap Entry.selectors = entries.flatMap Entry.selectors := by
  induction entries with
  | nil => rfl
  | cons entry rest ih =>
    obtain ⟨source, join?, selectors⟩ := entry
    rw [skeletons, List.flatMap_cons, List.flatMap_cons, ih]

/-- **Redirecting join conditions** leaves the sources and select lists alone. -/
theorem joins_repaired {m : Remap} {visible : List TableAlias} {scope : Scope}
    (names : scope.Names visible) (filed : scope.Filed) {entries entries' : List Entry}
    (h : m.redirectJoins scope entries = .ok entries') :
    entries'.map Entry.source = entries.map Entry.source
      ∧ Repairs m visible skeletons joinReferences (fun scope => m.redirectJoins scope)
        entries entries' := by
  induction entries generalizing entries' with
  | nil =>
    cases h
    exact ⟨rfl, rfl, List.Forall₂.nil, fun _ _ => rfl⟩
  | cons entry rest ih =>
    obtain ⟨join?', first, h⟩ := exists_of_bind_ok h
    obtain ⟨rest', others, h⟩ := exists_of_bind_ok h
    cases h
    obtain ⟨sources, skeletons_, repaired, settled⟩ := ih others
    obtain ⟨source, join?, selectors⟩ := entry
    cases join? with
    | none =>
      cases first
      refine ⟨congrArg (source :: ·) sources, congrArg (_ :: ·) skeletons_, repaired,
        fun scope names => ?_⟩
      simp only [Remap.redirectJoins, settled scope names]
      rfl
    | some on =>
      obtain ⟨outer, houter, first⟩ := exists_of_bind_ok first
      obtain ⟨inner, hinner, first⟩ := exists_of_bind_ok first
      cases first
      have outer_repaired := Remap.redirect_repaired names filed houter
      have inner_repaired := Remap.redirect_repaired names filed hinner
      refine ⟨congrArg (source :: ·) sources, congrArg (_ :: ·) skeletons_,
        .cons outer_repaired (.cons inner_repaired repaired), fun scope names => ?_⟩
      simp only [Remap.redirectJoins, Remap.redirectJoin, settled scope names,
        m.redirect_of_isVisible names outer_repaired.isVisible,
        m.redirect_of_isVisible names inner_repaired.isVisible]
      rfl

end Entry

theorem Source.alias?_skeleton (source : Source) : source.skeleton.alias? = source.alias? := by
  cases source with
  | table t => rfl
  | derived select =>
    obtain ⟨entries, filter?, order?, limit?, alias?⟩ := select
    rfl

theorem Entry.aliases_skeletons (entries : List Entry) :
    Entry.aliases (Entry.skeletons entries) = Entry.aliases entries := by
  induction entries with
  | nil => rfl
  | cons entry rest ih =>
    obtain ⟨source, join?, selectors⟩ := entry
    simp only [Entry.skeletons, Entry.aliases, List.flatMap_cons, source.alias?_skeleton] at ih ⊢
    rw [ih]

theorem Select.columnSelectors_skeleton (s : Select) :
    s.skeleton.columnSelectors = s.columnSelectors := by
  obtain ⟨entries, filter?, order?, limit?, alias?⟩ := s
  simp only [Select.skeleton, Select.columnSelectors, Select.selectors,
    Entry.flatMap_selectors_skeletons]

mutual

/-- **What repair makes of a query** in any scope. -/
theorem Select.repairs {m : Remap} {visible : List TableAlias} {scope : Scope}
    (names : scope.Names visible) (filed : scope.Filed) : (s : Select) → {s' : Select} →
    s.redirect m scope = .ok s' →
      Repairs m visible Select.skeleton Select.references
        (fun scope => Select.redirect m scope) s s'
  | ⟨entries, filter?, order?, limit?, alias?⟩, s', h => by
    rw [Select.redirect] at h
    obtain ⟨⟨entries', inside⟩, sources, h⟩ := exists_of_bind_ok h
    obtain ⟨entries'', joins, h⟩ := exists_of_bind_ok h
    obtain ⟨filter?', filter, h⟩ := exists_of_bind_ok h
    obtain ⟨order?', order, h⟩ := exists_of_bind_ok h
    cases h
    have entered := Entry.eq_current_enter ⟨scope, []⟩ sources
    have sources := Entry.sources_repaired names filed entries sources
    have named : Entry.aliases entries' = Entry.aliases entries := by
      rw [← Entry.aliases_skeletons, sources.skeletons_eq, Entry.aliases_skeletons]
    rw [ScopeStack.current_enter] at entered
    have names' : inside.Names (visible ++ Entry.aliases entries) := by
      rw [entered, ← named]
      exact names.declareAll entries'
    have filed' : inside.Filed := entered ▸ filed.declareAll _
    obtain ⟨same, joins⟩ := Entry.joins_repaired names' filed' joins
    have filter := Condition.option_repairs names' filed' filter? filter
    have order := OrderTerm.option_repairs names' filed' order? order
    have aliases : Entry.aliases entries'' = Entry.aliases entries := by
      rw [Entry.aliases_eq_map, same, ← Entry.aliases_eq_map, named]
    refine ⟨?_, ?_, fun scope names => ?_⟩
    · simp only [Select.skeleton, joins.skeleton_eq, sources.skeletons_eq, filter.skeleton_eq,
        order.skeleton_eq]
    · have joined := joins.repaired
      rw [Entry.joinReferences_eq_map _ entries', sources.joins_eq,
        ← Entry.joinReferences_eq_map] at joined
      simp only [Select.references, aliases, Entry.sourceReferences_congr visible same]
      exact List.rel_append (List.rel_append (List.rel_append sources.repaired joined)
        filter.repaired) order.repaired
    · have inside := names.declareAll entries''
      rw [aliases] at inside
      simp only [Select.redirect, sources.settled scope names entries'' same, bind, Except.bind,
        joins.settled _ inside, filter.settled _ inside, order.settled _ inside]
      rfl
termination_by structural x => x

theorem Entry.sources_repaired {m : Remap} {visible : List TableAlias} {scope : Scope}
    (names : scope.Names visible) (filed : scope.Filed) : (entries : List Entry) →
    {entries' : List Entry} → {inside : Scope} →
    Entry.redirectSources m scope entries = .ok (entries', inside) →
      SourcesRepaired m visible entries entries'
  | [], _, _, h => by
    cases h
    refine ⟨rfl, rfl, List.Forall₂.nil, fun _ _ other same => ?_⟩
    rw [List.map_eq_nil_iff.mp same]
    rfl
  | ⟨source, join?, selectors⟩ :: rest, _, _, h => by
    obtain ⟨source', first, h⟩ := exists_of_bind_ok h
    obtain ⟨⟨rest', inside⟩, others, h⟩ := exists_of_bind_ok h
    cases h
    have first := Source.repairs names filed source first
    have named : source'.alias? = source.alias? := by
      rw [← source'.alias?_skeleton, first.skeleton_eq, source.alias?_skeleton]
    have others := Entry.sources_repaired (names.declare source') (filed.declare source') rest
      others
    refine ⟨?_, congrArg (join? :: ·) others.joins_eq, ?_, fun scope names other same => ?_⟩
    · simp only [Entry.skeletons, first.skeleton_eq, others.skeletons_eq]
    · have repaired := others.repaired
      simp only [Entry.sourceReferences]
      rw [named] at repaired ⊢
      exact List.rel_append first.repaired repaired
    · obtain ⟨⟨source'', join?', selectors'⟩, rest'', rfl, same, sames⟩ :=
        List.map_eq_cons_iff.mp same
      cases same
      simp only [Entry.redirectSources, first.settled scope names, bind, Except.bind,
        others.settled _ (names.declare _) rest'' sames]
      rfl
termination_by structural x => x

theorem Source.repairs {m : Remap} {visible : List TableAlias} {scope : Scope}
    (names : scope.Names visible) (filed : scope.Filed) : (source : Source) → {source' : Source} →
    source.redirect m scope = .ok source' →
      Repairs m visible Source.skeleton Source.references (fun scope => Source.redirect m scope)
        source source'
  | .table t, _, h => by
    cases h
    exact ⟨rfl, List.Forall₂.nil, fun _ _ => rfl⟩
  | .derived select, _, h => by
    rw [Source.redirect] at h
    split at h
    · cases h
    · rename_i selects
      obtain ⟨select', inside, h⟩ := exists_of_bind_ok h
      cases h
      obtain ⟨skeleton_, repaired, settled⟩ := Select.repairs names filed select inside
      refine ⟨congrArg Source.derived skeleton_, repaired, fun scope names => ?_⟩
      have same : select'.columnSelectors = select.columnSelectors := by
        rw [← select'.columnSelectors_skeleton, skeleton_, select.columnSelectors_skeleton]
      simp only [Source.redirect, same, selects, settled scope names]
      rfl
termination_by structural x => x

theorem Condition.option_repairs {m : Remap} {visible : List TableAlias} {scope : Scope}
    (names : scope.Names visible) (filed : scope.Filed) : (condition? : Option Condition) →
    {condition?' : Option Condition} →
    Condition.redirectOption m scope condition? = .ok condition?' →
      Repairs m visible Condition.optionSkeleton Condition.optionReferences
        (fun scope => Condition.redirectOption m scope) condition? condition?'
  | none, _, h => .unchanged h rfl (fun _ => rfl)
  | some condition, _, h =>
    .inside some (Condition.repairs names filed condition) h (fun _ => rfl) (fun _ => rfl)
      (fun _ _ => rfl)
termination_by structural x => x

theorem Condition.repairs {m : Remap} {visible : List TableAlias} {scope : Scope}
    (names : scope.Names visible) (filed : scope.Filed) : (condition : Condition) →
    {condition' : Condition} → condition.redirect m scope = .ok condition' →
      Repairs m visible Condition.skeleton Condition.references
        (fun scope => Condition.redirect m scope) condition condition'
  | .comparison left op right, _, h =>
    .both (fun left right => Condition.comparison left op right)
      (Operand.repairs names filed left) (Operand.repairs names filed right) h
      (fun _ _ => rfl) (fun _ _ => rfl) (fun _ _ _ => rfl)
  | .logical op terms, _, h =>
    .inside (Condition.logical op) (Condition.all_repairs names filed terms) h (fun _ => rfl)
      (fun _ => rfl) (fun _ _ => rfl)
  | .not term, _, h =>
    .inside Condition.not (Condition.repairs names filed term) h (fun _ => rfl) (fun _ => rfl)
      (fun _ _ => rfl)
  | .like _ text kind, _, h =>
    .reference (fun column => Condition.like column text kind) names filed h (fun _ _ => rfl)
      (fun _ => rfl) (fun _ _ => rfl)
  | .isIn _ values, _, h =>
    .reference (fun column => Condition.isIn column values) names filed h (fun _ _ => rfl)
      (fun _ => rfl) (fun _ _ => rfl)
  | .nonempty select, _, h =>
    .inside Condition.nonempty (Select.repairs names filed select) h (fun _ => rfl) (fun _ => rfl)
      (fun _ _ => rfl)
termination_by structural x => x

theorem Condition.all_repairs {m : Remap} {visible : List TableAlias} {scope : Scope}
    (names : scope.Names visible) (filed : scope.Filed) : (terms : List Condition) →
    {terms' : List Condition} → Condition.redirectAll m scope terms = .ok terms' →
      Repairs m visible Condition.skeletons Condition.allReferences
        (fun scope => Condition.redirectAll m scope) terms terms'
  | [], _, h => .unchanged h rfl (fun _ => rfl)
  | term :: rest, _, h =>
    .both List.cons (Condition.repairs names filed term) (Condition.all_repairs names filed rest) h
      (fun _ _ => rfl) (fun _ _ => rfl) (fun _ _ _ => rfl)
termination_by structural x => x

theorem Operand.repairs {m : Remap} {visible : List TableAlias} {scope : Scope}
    (names : scope.Names visible) (filed : scope.Filed) : (operand : Operand) →
    {operand' : Operand} → operand.redirect m scope = .ok operand' →
      Repairs m visible Operand.skeleton Operand.references
        (fun scope => Operand.redirect m scope) operand operand'
  | .column _, _, h =>
    .reference Operand.column names filed h (fun _ _ => rfl) (fun _ => rfl) (fun _ _ => rfl)
  | .parameter _, _, h => .unchanged h rfl (fun _ => rfl)
  | .null, _, h => .unchanged h rfl (fun _ => rfl)
  | .count select, _, h =>
    .inside Operand.count (Select.repairs names filed select) h (fun _ => rfl) (fun _ => rfl)
      (fun _ _ => rfl)
termination_by structural x => x

theorem OrderTerm.option_repairs {m : Remap} {visible : List TableAlias} {scope : Scope}
    (names : scope.Names visible) (filed : scope.Filed) : (order? : Option (List OrderTerm)) →
    {order?' : Option (List OrderTerm)} → OrderTerm.redirectOption m scope order? = .ok order?' →
      Repairs m visible OrderTerm.optionSkeleton OrderTerm.optionReferences
        (fun scope => OrderTerm.redirectOption m scope) order? order?'
  | none, _, h => .unchanged h rfl (fun _ => rfl)
  | some terms, _, h =>
    .inside some (OrderTerm.all_repairs names filed terms) h (fun _ => rfl) (fun _ => rfl)
      (fun _ _ => rfl)
termination_by structural x => x

theorem OrderTerm.all_repairs {m : Remap} {visible : List TableAlias} {scope : Scope}
    (names : scope.Names visible) (filed : scope.Filed) : (terms : List OrderTerm) →
    {terms' : List OrderTerm} → OrderTerm.redirectAll m scope terms = .ok terms' →
      Repairs m visible OrderTerm.skeletons OrderTerm.allReferences
        (fun scope => OrderTerm.redirectAll m scope) terms terms'
  | [], _, h => .unchanged h rfl (fun _ => rfl)
  | ⟨target, descending⟩ :: rest, _, h =>
    .both (fun target rest => OrderTerm.mk target descending :: rest)
      (OrderTarget.repairs names filed target) (OrderTerm.all_repairs names filed rest) h
      (fun _ _ => rfl) (fun _ _ => rfl) (fun _ _ _ => rfl)
termination_by structural x => x

theorem OrderTarget.repairs {m : Remap} {visible : List TableAlias} {scope : Scope}
    (names : scope.Names visible) (filed : scope.Filed) : (target : OrderTarget) →
    {target' : OrderTarget} → target.redirect m scope = .ok target' →
      Repairs m visible OrderTarget.skeleton OrderTarget.references
        (fun scope => OrderTarget.redirect m scope) target target'
  | .column _, _, h =>
    .reference OrderTarget.column names filed h (fun _ _ => rfl) (fun _ => rfl) (fun _ _ => rfl)
  | .count select, _, h =>
    .inside OrderTarget.count (Select.repairs names filed select) h (fun _ => rfl) (fun _ => rfl)
      (fun _ _ => rfl)
termination_by structural x => x

end

/-! ### Repair -/

/-- **Repair is sound, and once is enough.**  A repaired query differs from the given one only in
the references of join conditions, conditions and orders, at every depth.  If tables were moved,
each reference was kept or redirected as it should be, all of them name visible sources, and
repairing the query again changes nothing. -/
theorem Select.repair_sound {s s' : Select} {m : Remap} (h : s.repair m = .ok s') :
    s'.skeleton = s.skeleton
      ∧ (m.moves = [] → s' = s)
      ∧ (m.moves ≠ [] →
        List.Forall₂ (Reference.Repaired m) (s.references []) (s'.references [])
          ∧ (∀ r ∈ s'.references [], r.IsVisible)
          ∧ s'.repair m = .ok s') := by
  by_cases unmoved : m.moves = []
  · rw [Select.repair, if_pos (List.isEmpty_iff.mpr unmoved)] at h
    cases h
    exact ⟨rfl, fun _ => rfl, fun moved => absurd unmoved moved⟩
  · have moved : ¬ m.moves.isEmpty = true := fun empty => unmoved (List.isEmpty_iff.mp empty)
    rw [Select.repair, if_neg moved] at h
    have repairs := Select.repairs Scope.names_empty Scope.filed_empty s h
    refine ⟨repairs.skeleton_eq, fun empty => absurd empty unmoved, fun _ => ?_⟩
    refine ⟨repairs.repaired, Reference.isVisible_of_repaired repairs.repaired, ?_⟩
    rw [Select.repair, if_neg moved]
    exact repairs.settled _ Scope.names_empty

/-- Notes of items on a page, which was moved into a derived table twice: the join, an existence
test and the order refer to the items by a given column. -/
def Select.notesOfItems (item : Column) : Select :=
  let page : Select :=
    { entries := [⟨.table ⟨"items", "Items", ⟨1⟩, ["Id"], []⟩, none,
        [.column (.inTable "Id" .scalar (some ⟨1⟩)) none]⟩]
      filter? := none, order? := none, limit? := none, alias? := some ⟨3⟩ }
  let marks : Select :=
    { entries := [⟨.table ⟨"marks", "Marks", ⟨5⟩, ["Id"], ["ItemId"]⟩, none, [.one]⟩]
      filter? := some (.comparison
        (.column (.inTable "ItemId" .foreignKey (some ⟨5⟩))) .equal (.column item))
      order? := none, limit? := none, alias? := none }
  { entries := [⟨.derived page, none, []⟩,
      ⟨.table ⟨"notes", "Notes", ⟨4⟩, ["Id"], ["ItemId"]⟩,
        some ⟨.left, item, .inTable "ItemId" .foreignKey (some ⟨4⟩)⟩,
        [.column (.inTable "Id" .scalar (some ⟨4⟩)) none]⟩]
    filter? := some (.nonempty marks)
    order? := some [⟨.column item, false⟩]
    limit? := none, alias? := none }

/-- The identifier of an item. -/
def Column.itemId : Column := .inTable "Id" .scalar (some ⟨1⟩)

/-- The identifier of an item on the page. -/
def Column.pageItemId : Column := .inSelect .itemId none (some ⟨3⟩)

/-- The items were moved twice. -/
def Remap.itemMoves : Remap := ⟨[(⟨1⟩, ⟨2⟩), (⟨2⟩, ⟨3⟩)]⟩

/-- References to the items are redirected to the page, past a derived table that is not visible. -/
theorem Select.repair_sound_notesOfItems :
    (notesOfItems .itemId).repair .itemMoves = .ok (notesOfItems .pageItemId)
      ∧ (notesOfItems .pageItemId).skeleton = (notesOfItems .itemId).skeleton
      ∧ List.Forall₂ (Reference.Repaired .itemMoves)
        ((notesOfItems .itemId).references []) ((notesOfItems .pageItemId).references [])
      ∧ (∀ r ∈ (notesOfItems .pageItemId).references [], r.IsVisible)
      ∧ (notesOfItems .pageItemId).repair .itemMoves = .ok (notesOfItems .pageItemId) := by
  have h : (notesOfItems .itemId).repair .itemMoves = .ok (notesOfItems .pageItemId) := rfl
  have sound := Select.repair_sound h
  exact ⟨h, sound.1, sound.2.2 (List.cons_ne_nil _ _)⟩

end ResourceQuery.Sql
