import ResourceQuery.Sql.Positional
import ResourceQuery.Sql.Render
import ResourceQuery.Sql.Repair

/-!
# Statements without values

What is left of a statement when the values of its parameters are erased.  Only the type that the
database converts a value to is kept, because it is written behind the placeholder.  The text of a
statement can be told from what is left, and so can everything that repair does.

## Main Definitions

- `Value.erase`, `Parameter.erase`: a value and a parameter of which only the type is left.
- `Select.erase`, `Source.erase`, `Condition.erase`: trees without values.
- `Rendered.erase`: a text with its parameters, without their values.

## Main Statements

- `Select.erase_render`: the text of a query is the text of what is left of it.
- `Rendered.positional_erase`: placeholders do not depend on values.
- `Select.redirect_erase`: references are redirected as if there were no values.

## Design Notes

Select lists are left as they are, as repair leaves them.
-/

namespace ResourceQuery.Sql

/-! ### Values -/

/-- A value of which only the type is left that the database converts it to. -/
def Value.erase : Value → Value
  | .cast _ type => .cast "" type
  | _ => .null

/-- A parameter without its value. -/
def Parameter.erase (p : Parameter) : Parameter :=
  ⟨p.name, p.value.erase⟩

@[simp] theorem Value.erase_erase (value : Value) : value.erase.erase = value.erase := by
  cases value <;> rfl

@[simp] theorem Parameter.erase_erase (p : Parameter) : p.erase.erase = p.erase := by
  simp [Parameter.erase]

/-- A limit without values. -/
def Limit.erase (limit : Limit) : Limit :=
  ⟨limit.count.erase, limit.offset?.map Parameter.erase⟩

/-! ### Trees -/

mutual

/-- A query without values. -/
def Select.erase : Select → Select
  | ⟨entries, filter?, order?, limit?, alias?⟩ =>
    ⟨Entry.eraseAll entries, Condition.eraseOption filter?, OrderTerm.eraseOption order?,
      limit?.map Limit.erase, alias?⟩

/-- Sources of a query without values. -/
def Entry.eraseAll : List Entry → List Entry
  | [] => []
  | ⟨source, join?, selectors⟩ :: rest => ⟨source.erase, join?, selectors⟩ :: Entry.eraseAll rest

/-- A source without values. -/
def Source.erase : Source → Source
  | .table t => .table t
  | .derived select => .derived select.erase

/-- A condition without values, if there is one. -/
def Condition.eraseOption : Option Condition → Option Condition
  | none => none
  | some condition => some condition.erase

/-- A condition without values. -/
def Condition.erase : Condition → Condition
  | .comparison left op right => .comparison left.erase op right.erase
  | .logical op terms => .logical op (Condition.eraseAll terms)
  | .not term => .not term.erase
  | .like column text kind => .like column text kind
  | .isIn column values => .isIn column (values.map Parameter.erase)
  | .nonempty select => .nonempty select.erase

/-- Conditions without values. -/
def Condition.eraseAll : List Condition → List Condition
  | [] => []
  | term :: rest => term.erase :: Condition.eraseAll rest

/-- A side of a comparison without values. -/
def Operand.erase : Operand → Operand
  | .column column => .column column
  | .parameter p => .parameter p.erase
  | .null => .null
  | .count select => .count select.erase

/-- An order without values, if there is one. -/
def OrderTerm.eraseOption : Option (List OrderTerm) → Option (List OrderTerm)
  | none => none
  | some terms => some (OrderTerm.eraseAll terms)

/-- The criteria of an order without values. -/
def OrderTerm.eraseAll : List OrderTerm → List OrderTerm
  | [] => []
  | ⟨target, descending⟩ :: rest => ⟨target.erase, descending⟩ :: OrderTerm.eraseAll rest

/-- What rows are ordered by, without values. -/
def OrderTarget.erase : OrderTarget → OrderTarget
  | .column column => .column column
  | .count select => .count select.erase

end

theorem Select.erase_eq (s : Select) :
    s.erase = ⟨Entry.eraseAll s.entries, Condition.eraseOption s.filter?,
      OrderTerm.eraseOption s.order?, s.limit?.map Limit.erase, s.alias?⟩ := by
  cases s
  rw [Select.erase]

@[simp] theorem Select.alias?_erase (s : Select) : s.erase.alias? = s.alias? := by
  rw [Select.erase_eq]

/-- Looking up a key does not depend on the values. -/
theorem lookup_map_values {α β γ : Type} [BEq α] (f : β → γ) (entries : List (α × β)) (a : α) :
    (entries.map (fun entry => (entry.1, f entry.2))).lookup a = (entries.lookup a).map f := by
  induction entries with
  | nil => rfl
  | cons entry rest ih =>
    rw [List.map_cons, List.lookup_cons, List.lookup_cons, ih]
    cases a == entry.1 <;> rfl

/-! ### Text -/

namespace Piece

/-- A piece of text without the value of its parameter. -/
def erase : Piece → Piece
  | param p => param p.erase
  | piece => piece

theorem map_erase_joinPieces (separator : String) (parts : List (List Piece)) :
    (joinPieces separator parts).map erase = joinPieces separator (parts.map (List.map erase)) := by
  induction parts with
  | nil => rfl
  | cons part rest ih =>
    cases rest with
    | nil => rfl
    | cons next rest =>
      simp only [joinPieces, List.map_cons, List.map_append, erase] at ih ⊢
      rw [ih]

end Piece

/-- The items of the select list stay. -/
theorem Entry.selectorPieces_eraseAll (entries : List Entry) :
    Entry.selectorPieces (Entry.eraseAll entries) = Entry.selectorPieces entries := by
  induction entries with
  | nil => rfl
  | cons entry rest ih =>
    obtain ⟨source, join?, selectors⟩ := entry
    rw [Entry.eraseAll, Entry.selectorPieces, Entry.selectorPieces, ih]

theorem Operand.isNull_erase (operand : Operand) : operand.erase.isNull = operand.isNull := by
  cases operand <;> rfl

theorem Limit.map_erase_pieces (limit : Limit) :
    limit.erase.pieces.map Piece.erase = limit.pieces.map Piece.erase := by
  obtain ⟨count, offset?⟩ := limit
  cases offset? <;> simp [Limit.erase, Limit.pieces, Piece.erase]

mutual

/-- **The pieces of a query can be told from what is left of it**, up to values. -/
theorem Select.map_erase_pieces :
    (s : Select) → s.erase.pieces.map Piece.erase = s.pieces.map Piece.erase
  | ⟨entries, filter?, order?, limit?, alias?⟩ => by
    simp only [Select.erase, Select.pieces, Entry.selectorPieces_eraseAll, List.map_cons,
      List.map_append, Entry.map_erase_sourcePieces entries,
      Condition.map_erase_wherePieces filter?, OrderTerm.map_erase_orderPieces order?]
    cases limit? with
    | none => rfl
    | some limit => simp only [Option.map_some, List.map_cons, limit.map_erase_pieces]

theorem Entry.map_erase_sourcePieces : (entries : List Entry) →
    (Entry.sourcePieces (Entry.eraseAll entries)).map Piece.erase
      = (Entry.sourcePieces entries).map Piece.erase
  | [] => rfl
  | ⟨source, join?, selectors⟩ :: rest => by
    simp only [Entry.eraseAll, Entry.sourcePieces, List.map_cons, List.map_append,
      source.map_erase_pieces, Entry.map_erase_sourcePieces rest]

theorem Source.map_erase_pieces :
    (source : Source) → source.erase.pieces.map Piece.erase = source.pieces.map Piece.erase
  | .table _ => rfl
  | .derived ⟨entries, filter?, order?, limit?, alias?⟩ => by
    have inside := Select.map_erase_pieces ⟨entries, filter?, order?, limit?, alias?⟩
    simp only [Select.erase] at inside
    simp only [Source.erase, Select.erase, Source.pieces, nested, List.map_append, inside]

theorem Condition.map_erase_wherePieces : (condition? : Option Condition) →
    (Condition.wherePieces (Condition.eraseOption condition?)).map Piece.erase
      = (Condition.wherePieces condition?).map Piece.erase
  | none => rfl
  | some condition => by
    simp only [Condition.eraseOption, Condition.wherePieces, List.map_cons,
      condition.map_erase_pieces]

theorem OrderTerm.map_erase_orderPieces : (order? : Option (List OrderTerm)) →
    (OrderTerm.orderPieces (OrderTerm.eraseOption order?)).map Piece.erase
      = (OrderTerm.orderPieces order?).map Piece.erase
  | none => rfl
  | some terms => by
    simp only [OrderTerm.eraseOption, OrderTerm.orderPieces, List.map_cons,
      Piece.map_erase_joinPieces, OrderTerm.map_erase_listPieces terms]

theorem Condition.map_erase_pieces : (condition : Condition) →
    condition.erase.pieces.map Piece.erase = condition.pieces.map Piece.erase
  | .comparison left op right => by
    simp only [Condition.erase, Condition.pieces, Operand.isNull_erase]
    split
    · simp only [List.map_append, List.map_cons, left.map_erase_pieces, right.map_erase_pieces]
    · simp only [List.map_append, List.map_cons, left.map_erase_pieces, right.map_erase_pieces]
  | .logical op terms => by
    simp only [Condition.erase, Condition.pieces, Piece.map_erase_joinPieces,
      Condition.map_erase_termPieces terms]
  | .not term => by
    simp only [Condition.erase, Condition.pieces, List.map_append, List.map_cons,
      term.map_erase_pieces]
  | .like _ _ _ => rfl
  | .isIn column values => by
    simp [Condition.erase, Condition.pieces, Piece.map_erase_joinPieces, Piece.erase,
      Function.comp_def]
  | .nonempty select => by
    simp only [Condition.erase, Condition.pieces, nested, List.map_append, List.map_cons,
      select.map_erase_pieces]

theorem Condition.map_erase_termPieces : (terms : List Condition) →
    (Condition.termPieces (Condition.eraseAll terms)).map (List.map Piece.erase)
      = (Condition.termPieces terms).map (List.map Piece.erase)
  | [] => rfl
  | term :: rest => by
    simp only [Condition.eraseAll, Condition.termPieces, List.map_append, List.map_cons,
      term.map_erase_pieces, Condition.map_erase_termPieces rest]

theorem Operand.map_erase_pieces :
    (operand : Operand) → operand.erase.pieces.map Piece.erase = operand.pieces.map Piece.erase
  | .column _ => rfl
  | .parameter p => by
    simp [Operand.erase, Operand.pieces, Piece.erase]
  | .null => rfl
  | .count select => by
    simp only [Operand.erase, Operand.pieces, nested, List.map_append, select.map_erase_pieces]

theorem OrderTerm.map_erase_listPieces : (terms : List OrderTerm) →
    (OrderTerm.listPieces (OrderTerm.eraseAll terms)).map (List.map Piece.erase)
      = (OrderTerm.listPieces terms).map (List.map Piece.erase)
  | [] => rfl
  | ⟨target, descending⟩ :: rest => by
    simp only [OrderTerm.eraseAll, OrderTerm.listPieces, List.map_append, List.map_cons,
      target.map_erase_pieces, OrderTerm.map_erase_listPieces rest]

theorem OrderTarget.map_erase_pieces :
    (target : OrderTarget) → target.erase.pieces.map Piece.erase = target.pieces.map Piece.erase
  | .column _ => rfl
  | .count select => by
    simp only [OrderTarget.erase, OrderTarget.pieces, nested, List.map_append,
      select.map_erase_pieces]

end

/-! ### Rendered text -/

namespace Rendered

/-- The values of parameters by name, of which only the types are left. -/
def eraseParams (params : List (String × Value)) : List (String × Value) :=
  params.map (fun p => (p.1, p.2.erase))

/-- A text with its parameters, without their values. -/
def erase (r : Rendered) : Rendered :=
  ⟨r.text, eraseParams r.params⟩

@[simp] theorem castText_erase (value : Value) : castText value.erase = castText value := by
  cases value <;> rfl

theorem placeholder_eraseParams (params : List (String × Value)) (name : String) :
    placeholder (eraseParams params) name = placeholder params name := by
  have position : (eraseParams params).findIdx? (fun p => p.1 = name)
      = params.findIdx? (fun p => p.1 = name) := by
    rw [eraseParams, List.findIdx?_map]
    rfl
  rw [placeholder, placeholder, position, eraseParams, lookup_map_values]
  cases params.findIdx? (fun p => p.1 = name) with
  | none => rfl
  | some position =>
    cases params.lookup name with
    | none => rfl
    | some value => simp only [Option.map_some, castText_erase]

theorem replaceNames_eraseParams (params : List (String × Value)) (quote? : Option Char)
    (text : List Char) :
    replaceNames (eraseParams params) quote? text = replaceNames params quote? text := by
  fun_induction replaceNames params quote? text with
  | case1 => rw [replaceNames]
  | case2 c rest mark ih =>
    simp only [dite_eq_ite] at ih
    rw [replaceNames, ih]
  | case3 c rest isMark ih => rw [replaceNames, if_pos isMark, ih]
  | case4 c rest notMark isName digits ih =>
    rw [replaceNames, if_neg notMark, if_pos isName]
    simp only [placeholder_eraseParams, ih]
    rfl
  | case5 c rest notMark notName ih => rw [replaceNames, if_neg notMark, if_neg notName, ih]

/-- **Placeholders do not depend on values.** -/
theorem positional_erase (r : Rendered) : r.erase.positional = r.positional := by
  simp only [positional, erase, replaceNames_eraseParams]

end Rendered

namespace Piece

theorem charsFrom_map_erase (depth : Nat) (pieces : List Piece) :
    charsFrom (fun p => p.name.toList) depth (pieces.map erase)
      = charsFrom (fun p => p.name.toList) depth pieces := by
  induction pieces generalizing depth with
  | nil => rfl
  | cons piece rest ih =>
    rw [List.map_cons, charsFrom, charsFrom, ih]
    cases piece <;> rfl

theorem references_map_erase (pieces : List Piece) :
    references (pieces.map erase) = (references pieces).map Parameter.erase := by
  rw [references, references, List.filterMap_map, List.map_filterMap]
  congr 1
  funext piece
  cases piece <;> rfl

theorem register_erase (params : List (String × Value)) (p : Parameter) :
    register (Rendered.eraseParams params) p.erase = Rendered.eraseParams (register params p) := by
  rw [register, register, show p.erase.name = p.name from rfl, Rendered.eraseParams,
    lookup_map_values]
  cases params.lookup p.name with
  | some value => rfl
  | none => simp [Rendered.eraseParams, Parameter.erase]

theorem params_map_erase (pieces : List Piece) :
    params (pieces.map erase) = Rendered.eraseParams (params pieces) := by
  rw [params, params, references_map_erase, List.foldl_map]
  show (references pieces).foldl (fun params p => register params p.erase)
    (Rendered.eraseParams []) = _
  exact List.foldl_hom Rendered.eraseParams register_erase

/-- **The text of pieces can be told from what is left of them.** -/
theorem render_map_erase (pieces : List Piece) :
    render (pieces.map erase) = (render pieces).erase := by
  rw [render, render, chars, chars, charsFrom_map_erase, params_map_erase]
  rfl

end Piece

/-- **The text of a query can be told from what is left of it**, and so can its parameters except
for their values. -/
theorem Select.erase_render {s t : Select} (same : s.erase = t.erase) :
    s.render.erase = t.render.erase := by
  rw [Select.render, Select.render, ← Piece.render_map_erase, ← Piece.render_map_erase,
    ← s.map_erase_pieces, ← t.map_erase_pieces, same]

/-! ### What is visible -/

@[simp] theorem Source.alias?_erase (source : Source) : source.erase.alias? = source.alias? := by
  cases source with
  | table t => rfl
  | derived s => simp only [Source.erase, Source.alias?, Select.alias?_erase]

theorem Entry.flatMap_selectors_eraseAll (entries : List Entry) :
    (Entry.eraseAll entries).flatMap Entry.selectors = entries.flatMap Entry.selectors := by
  induction entries with
  | nil => rfl
  | cons entry rest ih =>
    obtain ⟨source, join?, selectors⟩ := entry
    rw [Entry.eraseAll, List.flatMap_cons, List.flatMap_cons, ih]

@[simp] theorem Select.columnSelectors_erase (s : Select) :
    s.erase.columnSelectors = s.columnSelectors := by
  simp only [Select.columnSelectors, Select.selectors, Select.erase_eq,
    Entry.flatMap_selectors_eraseAll]

theorem Select.expose_erase (s : Select) : s.erase.expose = s.expose := by
  funext selected
  simp only [Select.expose, Select.alias?_erase]

@[simp] theorem Source.findColumn?_erase (source : Source) (name : String)
    (inside? : Option TableAlias) :
    source.erase.findColumn? name inside? = source.findColumn? name inside? := by
  cases source with
  | table t => rfl
  | derived s =>
    simp only [Source.erase, Source.findColumn?, Select.findColumn?, Select.columnSelectors_erase,
      Select.expose_erase]

mutual

theorem Source.declares_erase (a : TableAlias) :
    (source : Source) → source.erase.declares a = source.declares a
  | .table _ => rfl
  | .derived ⟨entries, _, _, _, _⟩ => by
    simp only [Source.erase, Select.erase, Source.declares, Source.declaresAny_eraseAll a entries]

theorem Source.declaresAny_eraseAll (a : TableAlias) : (entries : List Entry) →
    Source.declaresAny a (Entry.eraseAll entries) = Source.declaresAny a entries
  | [] => rfl
  | ⟨source, _, _⟩ :: rest => by
    simp only [Entry.eraseAll, Source.declaresAny, Source.declares_erase a source,
      Source.declaresAny_eraseAll a rest]

end

/-- A source is used in a join as if it had no values. -/
theorem JoinOn.make_erase (kind : JoinKind) (source : Source) (outer inner : Column) :
    JoinOn.make kind source.erase outer inner = JoinOn.make kind source outer inner := by
  have owns : ∀ c, source.erase.owns c = source.owns c := by
    intro c
    simp only [Source.owns, Source.declares_erase]
  simp only [JoinOn.make, owns, Source.alias?_erase]

/-- A query becomes a derived table as if it had no values. -/
theorem Source.ofSelect_erase (s : Select) (a : TableAlias) :
    Source.ofSelect s.erase a = Source.erase <$> Source.ofSelect s a := by
  simp only [Source.ofSelect, Select.columnSelectors_erase]
  split
  · rfl
  · simp only [Functor.map, Except.map, Source.erase, Select.erase_eq]

namespace Scope

/-- A scope without values. -/
def erase (scope : Scope) : Scope :=
  ⟨scope.sources.map (fun entry => (entry.1, entry.2.erase))⟩

theorem lookup_erase (scope : Scope) (a : TableAlias) :
    scope.erase.lookup a = (scope.lookup a).map Source.erase := by
  obtain ⟨sources⟩ := scope
  exact lookup_map_values Source.erase sources a

theorem visible_erase (scope : Scope) : scope.erase.visible = scope.visible := by
  simp [visible, erase, Function.comp_def]

theorem insertSource_erase (a : TableAlias) (source : Source)
    (sources : List (TableAlias × Source)) :
    insertSource a source.erase (sources.map (fun entry => (entry.1, entry.2.erase)))
      = (insertSource a source sources).map (fun entry => (entry.1, entry.2.erase)) := by
  induction sources with
  | nil => rfl
  | cons entry rest ih =>
    simp only [insertSource, List.map_cons]
    split
    · rfl
    · split
      · rfl
      · rw [ih, List.map_cons]

theorem declare_erase (scope : Scope) (source : Source) :
    scope.erase.declare source.erase = (scope.declare source).erase := by
  simp only [declare, Source.alias?_erase]
  cases source.alias? with
  | none => rfl
  | some a => exact congrArg Scope.mk (insertSource_erase a source scope.sources)

end Scope

/-! ### Redirecting -/

namespace Remap

variable {m : Remap} {scope : Scope}

theorem follow?_erase (name : String) (stale : TableAlias) (steps : Nat) (former : TableAlias) :
    m.follow? scope.erase name stale steps former = m.follow? scope name stale steps former := by
  have provided : ∀ enclosing, provided? scope.erase name stale enclosing
      = provided? scope name stale enclosing := by
    intro enclosing
    simp only [provided?, Scope.lookup_erase]
    cases scope.lookup enclosing with
    | none => rfl
    | some source => exact source.findColumn?_erase name (some stale)
  induction steps generalizing former with
  | zero => rfl
  | succ steps ih => simp only [follow?, provided, ih]

theorem redirect_erase (column : Column) :
    m.redirect scope.erase column = m.redirect scope column := by
  simp only [redirect, Scope.lookup_erase, Option.isSome_map, follow?_erase, Scope.visible_erase]

theorem redirectJoins_eraseAll (entries : List Entry) :
    m.redirectJoins scope.erase (Entry.eraseAll entries)
      = Entry.eraseAll <$> m.redirectJoins scope entries := by
  induction entries with
  | nil => rfl
  | cons entry rest ih =>
    obtain ⟨source, join?, selectors⟩ := entry
    have same : m.redirectJoin scope.erase join? = m.redirectJoin scope join? := by
      cases join? with
      | none => rfl
      | some on => simp only [redirectJoin, redirect_erase]
    simp only [Entry.eraseAll, redirectJoins, ih, same, map_bind, bind_map_left, map_pure]

end Remap

mutual

/-- **References are redirected as if there were no values.** -/
theorem Select.redirect_erase (m : Remap) (scope : Scope) : (s : Select) →
    s.erase.redirect m scope.erase = Select.erase <$> s.redirect m scope
  | ⟨entries, filter?, order?, limit?, alias?⟩ => by
    simp only [Select.erase, Select.redirect, Entry.redirectSources_eraseAll m scope entries,
      map_bind, bind_map_left, map_pure, Remap.redirectJoins_eraseAll,
      Condition.redirect_eraseOption m _ filter?, OrderTerm.redirect_eraseOption m _ order?]

theorem Entry.redirectSources_eraseAll (m : Remap) (scope : Scope) : (entries : List Entry) →
    Entry.redirectSources m scope.erase (Entry.eraseAll entries)
      = (fun result => (Entry.eraseAll result.1, result.2.erase))
        <$> Entry.redirectSources m scope entries
  | [] => rfl
  | ⟨source, join?, selectors⟩ :: rest => by
    simp only [Entry.eraseAll, Entry.redirectSources, Source.redirect_erase m scope source,
      Scope.declare_erase, map_bind, bind_map_left, map_pure,
      Entry.redirectSources_eraseAll m _ rest]

theorem Source.redirect_erase (m : Remap) (scope : Scope) : (source : Source) →
    source.erase.redirect m scope.erase = Source.erase <$> source.redirect m scope
  | .table _ => rfl
  | .derived select => by
    simp only [Source.erase, Source.redirect, Select.columnSelectors_erase, Select.alias?_erase]
    split
    · rfl
    · simp only [Select.redirect_erase m scope select, map_bind, bind_map_left, map_pure,
        Source.erase]

theorem Condition.redirect_eraseOption (m : Remap) (scope : Scope) :
    (condition? : Option Condition) →
    Condition.redirectOption m scope.erase (Condition.eraseOption condition?)
      = Condition.eraseOption <$> Condition.redirectOption m scope condition?
  | none => rfl
  | some condition => by
    simp only [Condition.eraseOption, Condition.redirectOption,
      Condition.redirect_erase m scope condition, map_bind, bind_map_left, map_pure]

theorem Condition.redirect_erase (m : Remap) (scope : Scope) : (condition : Condition) →
    condition.erase.redirect m scope.erase = Condition.erase <$> condition.redirect m scope
  | .comparison left op right => by
    simp only [Condition.erase, Condition.redirect, Operand.redirect_erase m scope left,
      Operand.redirect_erase m scope right, map_bind, bind_map_left, map_pure]
  | .logical op terms => by
    simp only [Condition.erase, Condition.redirect, Condition.redirect_eraseAll m scope terms,
      map_bind, bind_map_left, map_pure]
  | .not term => by
    simp only [Condition.erase, Condition.redirect, Condition.redirect_erase m scope term,
      map_bind, bind_map_left, map_pure]
  | .like column text kind => by
    simp only [Condition.erase, Condition.redirect, Remap.redirect_erase, map_bind, map_pure]
  | .isIn column values => by
    simp only [Condition.erase, Condition.redirect, Remap.redirect_erase, map_bind, map_pure]
  | .nonempty select => by
    simp only [Condition.erase, Condition.redirect, Select.redirect_erase m scope select,
      map_bind, bind_map_left, map_pure]

theorem Condition.redirect_eraseAll (m : Remap) (scope : Scope) : (terms : List Condition) →
    Condition.redirectAll m scope.erase (Condition.eraseAll terms)
      = Condition.eraseAll <$> Condition.redirectAll m scope terms
  | [] => rfl
  | term :: rest => by
    simp only [Condition.eraseAll, Condition.redirectAll, Condition.redirect_erase m scope term,
      Condition.redirect_eraseAll m scope rest, map_bind, bind_map_left, map_pure]

theorem Operand.redirect_erase (m : Remap) (scope : Scope) : (operand : Operand) →
    operand.erase.redirect m scope.erase = Operand.erase <$> operand.redirect m scope
  | .column column => by
    simp only [Operand.erase, Operand.redirect, Remap.redirect_erase, map_bind, map_pure]
  | .parameter _ => rfl
  | .null => rfl
  | .count select => by
    simp only [Operand.erase, Operand.redirect, Select.redirect_erase m scope select, map_bind,
      bind_map_left, map_pure]

theorem OrderTerm.redirect_eraseOption (m : Remap) (scope : Scope) :
    (order? : Option (List OrderTerm)) →
    OrderTerm.redirectOption m scope.erase (OrderTerm.eraseOption order?)
      = OrderTerm.eraseOption <$> OrderTerm.redirectOption m scope order?
  | none => rfl
  | some terms => by
    simp only [OrderTerm.eraseOption, OrderTerm.redirectOption,
      OrderTerm.redirect_eraseAll m scope terms, map_bind, bind_map_left, map_pure]

theorem OrderTerm.redirect_eraseAll (m : Remap) (scope : Scope) : (terms : List OrderTerm) →
    OrderTerm.redirectAll m scope.erase (OrderTerm.eraseAll terms)
      = OrderTerm.eraseAll <$> OrderTerm.redirectAll m scope terms
  | [] => rfl
  | ⟨target, descending⟩ :: rest => by
    simp only [OrderTerm.eraseAll, OrderTerm.redirectAll, OrderTarget.redirect_erase m scope target,
      OrderTerm.redirect_eraseAll m scope rest, map_bind, bind_map_left, map_pure]

theorem OrderTarget.redirect_erase (m : Remap) (scope : Scope) : (target : OrderTarget) →
    target.erase.redirect m scope.erase = OrderTarget.erase <$> target.redirect m scope
  | .column column => by
    simp only [OrderTarget.erase, OrderTarget.redirect, Remap.redirect_erase, map_bind, map_pure]
  | .count select => by
    simp only [OrderTarget.erase, OrderTarget.redirect, Select.redirect_erase m scope select,
      map_bind, bind_map_left, map_pure]

end

/-- A query is repaired as if there were no values. -/
theorem Select.repair_erase (s : Select) (m : Remap) :
    s.erase.repair m = Select.erase <$> s.repair m := by
  unfold Select.repair
  split
  · rfl
  · exact Select.redirect_erase m Scope.empty s

/-! ### Building queries -/

namespace OrderTerm

/-- A criterion of an order without values. -/
def erase (term : OrderTerm) : OrderTerm :=
  ⟨term.target.erase, term.descending⟩

theorem eraseAll_eq_map (terms : List OrderTerm) : eraseAll terms = terms.map erase := by
  induction terms with
  | nil => rfl
  | cons term rest ih =>
    obtain ⟨target, descending⟩ := term
    rw [eraseAll, ih, List.map_cons, erase]

theorem eraseAll_cons (term : OrderTerm) (rest : List OrderTerm) :
    eraseAll (term :: rest) = term.erase :: eraseAll rest := by
  simp only [eraseAll_eq_map, List.map_cons]

theorem eraseAll_append (terms more : List OrderTerm) :
    eraseAll (terms ++ more) = eraseAll terms ++ eraseAll more := by
  simp only [eraseAll_eq_map, List.map_append]

end OrderTerm

namespace Condition

theorem eraseAll_eq_map (terms : List Condition) : eraseAll terms = terms.map erase := by
  induction terms with
  | nil => rfl
  | cons term rest ih => rw [eraseAll, ih, List.map_cons]

theorem termsFor_erase (op : LogicalOp) (condition : Condition) :
    termsFor op condition.erase = eraseAll (termsFor op condition) := by
  cases condition with
  | logical inner terms =>
    simp only [erase, termsFor]
    split
    · rfl
    · rfl
  | _ => rfl

/-- Terms are combined as if there were no values. -/
theorem combine_eraseAll (op : LogicalOp) (terms : List Condition) :
    combine op (eraseAll terms) = (combine op terms).erase := by
  have parts : (eraseAll terms).flatMap (termsFor op)
      = eraseAll (terms.flatMap (termsFor op)) := by
    simp only [eraseAll_eq_map, List.flatMap_map, List.map_flatMap, termsFor_erase]
  rw [combine, combine, parts]
  match terms.flatMap (termsFor op) with
  | [] => rfl
  | [_] => rfl
  | _ :: _ :: _ => rfl

theorem equalsAny_map_erase (column : Column) (values : List Parameter) :
    equalsAny column (values.map Parameter.erase) = (equalsAny column values).erase := by
  match values with
  | [] => rfl
  | [_] => rfl
  | _ :: _ :: _ => rfl

end Condition

/-- A condition is added as if there were no values. -/
theorem Select.restrict_erase (s : Select) (condition : Condition) :
    s.erase.restrict condition.erase = (s.restrict condition).erase := by
  obtain ⟨entries, filter?, order?, limit?, alias?⟩ := s
  cases filter? with
  | none => rfl
  | some existing =>
    have both := Condition.combine_eraseAll .and [condition, existing]
    simp only [Condition.eraseAll] at both
    simp only [Select.restrict, Select.erase, Condition.eraseOption, Condition.all, both]

end ResourceQuery.Sql
