import ResourceQuery.Compile.Page
import ResourceQuery.Request.Fetch

/-!
# Requests that differ in their values

Two requests are alike if one becomes the other when constants are exchanged for other constants and
the page for a larger, a smaller or a later one.

## Main Definitions

- `Filter.Alike`: two filters differ only in constants other than null.
- `Layer.Alike`, `Fetch.Alike`: two layers differ only in the filters of layers.
- `Request.Alike`: two requests differ only in constants and in their page.

## Main Statements

- `Layer.Alike.ofLayer`: what is fetched for layers that are alike is alike.
-/

namespace ResourceQuery

/-! ### Filters -/

/-- Two sides of comparisons are equal, or both are constants other than null. -/
inductive Expression.Alike : Expression → Expression → Prop
  | same (expression : Expression) : Alike expression expression
  | constants {v w : Json} (left : v ≠ .null) (right : w ≠ .null) :
      Alike (.constant v) (.constant w)

namespace Filter

mutual

/-- **Two filters differ only in constants other than null**, and in the members other than null of
lists that have equally many of them. -/
inductive Alike : Filter → Filter → Prop
  | comparison {kind : ComparisonKind} {left left' right right' : Expression}
      (lefts : left.Alike left') (rights : right.Alike right') :
      Alike (.comparison kind left right) (.comparison kind left' right')
  | and {terms terms' : List Filter} (all : AllAlike terms terms') :
      Alike (.and terms) (.and terms')
  | or {terms terms' : List Filter} (all : AllAlike terms terms') :
      Alike (.or terms) (.or terms')
  | not {term term' : Filter} (inner : Alike term term') : Alike (.not term) (.not term')
  | textMatch {field : Path} {text : String} {kind : Sql.MatchKind} :
      Alike (.textMatch field text kind) (.textMatch field text kind)
  | any {field : Path} {values values' : List Json}
      (number : (values.filter (fun v => v ≠ .null)).length
        = (values'.filter (fun v => v ≠ .null)).length)
      (null : .null ∈ values ↔ .null ∈ values') : Alike (.any field values) (.any field values')
  | has {relationship : Path} {filter? filter?' : Option Filter}
      (inner : OptionAlike filter? filter?') :
      Alike (.has relationship filter?) (.has relationship filter?')
  | isType {relationship : Path} {derivedType : String} :
      Alike (.isType relationship derivedType) (.isType relationship derivedType)

/-- Filters of two lists differ only in constants, one by one. -/
inductive AllAlike : List Filter → List Filter → Prop
  | nil : AllAlike [] []
  | cons {term term' : Filter} {rest rest' : List Filter} (first : Alike term term')
      (others : AllAlike rest rest') : AllAlike (term :: rest) (term' :: rest')

/-- Two filters differ only in constants, or both are absent. -/
inductive OptionAlike : Option Filter → Option Filter → Prop
  | none : OptionAlike none none
  | some {filter filter' : Filter} (inner : Alike filter filter') :
      OptionAlike (some filter) (some filter')

end

end Filter

/-! ### Layers -/

namespace Layer

mutual

/-- **Two layers differ only in the constants of filters**, their own and those of the layers below
them.  Pages are not compared. -/
inductive Alike : Layer → Layer → Prop
  | mk {filter? filter?' : Option Filter} {sort? : Option (List SortElement)}
      {page? page?' : Option Pagination} {selection? selection?' : Option Selection}
      {inclusions : List Inclusion} (filters : Filter.OptionAlike filter? filter?')
      (selections : SelectionAlike selection? selection?') :
      Alike ⟨filter?, sort?, page?, selection?, inclusions⟩
        ⟨filter?', sort?, page?', selection?', inclusions⟩

/-- Two selections differ only in the filters of layers, or both are absent. -/
inductive SelectionAlike : Option Selection → Option Selection → Prop
  | none : SelectionAlike none none
  | some {attributes : List String} {relationships relationships' : List (String × Layer)}
      (layers : AllAlike relationships relationships') :
      SelectionAlike (some ⟨attributes, relationships⟩) (some ⟨attributes, relationships'⟩)

/-- The layers of two lists of relationships differ only in filters, one by one. -/
inductive AllAlike : List (String × Layer) → List (String × Layer) → Prop
  | nil : AllAlike [] []
  | cons {name : String} {layer layer' : Layer} {rest rest' : List (String × Layer)}
      (first : Alike layer layer') (others : AllAlike rest rest') :
      AllAlike ((name, layer) :: rest) ((name, layer') :: rest')

end

variable {layer layer' : Layer}

theorem Alike.filters (alike : layer.Alike layer') :
    Filter.OptionAlike layer.filter? layer'.filter? := by
  cases alike with
  | mk filters _ => exact filters

theorem Alike.selections (alike : layer.Alike layer') :
    SelectionAlike layer.selection? layer'.selection? := by
  cases alike with
  | mk _ selections => exact selections

theorem Alike.sort?_eq (alike : layer.Alike layer') : layer.sort? = layer'.sort? := by
  cases alike with
  | mk _ _ => rfl

theorem Alike.addInclusions (alike : layer.Alike layer') (more : List Inclusion) :
    (layer.addInclusions more).Alike (layer'.addInclusions more) := by
  cases alike with
  | mk filters selections => exact .mk filters selections

theorem Alike.empty : Layer.empty.Alike Layer.empty :=
  .mk .none .none

theorem AllAlike.mergeInclusion {layers layers' : List (String × Layer)}
    (alike : AllAlike layers layers') (inclusion : Inclusion) :
    AllAlike (mergeInclusion inclusion layers) (mergeInclusion inclusion layers') := by
  induction layers generalizing layers' with
  | nil =>
    cases alike
    exact .cons (Alike.empty.addInclusions _) .nil
  | cons entry rest ih =>
    cases alike with
    | cons first others =>
      rw [Layer.mergeInclusion, Layer.mergeInclusion]
      split
      · exact .cons (first.addInclusions _) others
      · exact .cons first (ih others)

/-- Layers that are alike lead to the same relationships. -/
theorem Alike.relationships (alike : layer.Alike layer') :
    AllAlike layer.relationships layer'.relationships := by
  cases alike with
  | @mk filter? filter?' sort? page? page?' selection? selection?' inclusions filters selections =>
    simp only [Layer.relationships]
    have selected : AllAlike (selected ⟨filter?, sort?, page?, selection?, inclusions⟩)
        (selected ⟨filter?', sort?, page?', selection?', inclusions⟩) := by
      cases selections with
      | none => exact .nil
      | some layers => exact layers
    generalize Layer.selected _ = layers at selected ⊢
    generalize Layer.selected _ = layers' at selected ⊢
    induction inclusions generalizing layers layers' with
    | nil => exact selected
    | cons inclusion rest ih => exact ih _ _ (selected.mergeInclusion inclusion)

end Layer

/-! ### What is fetched -/

namespace Fetch

mutual

/-- What is fetched differs only in the filters of layers. -/
inductive Alike : Fetch → Fetch → Prop
  | mk {layer layer' : Layer} {relationships relationships' : List (String × Fetch)}
      (layers : layer.Alike layer') (below : AllAlike relationships relationships') :
      Alike (.mk layer relationships) (.mk layer' relationships')

/-- What is fetched along two lists of relationships differs only in filters, one by one. -/
inductive AllAlike : List (String × Fetch) → List (String × Fetch) → Prop
  | nil : AllAlike [] []
  | cons {name : String} {fetch fetch' : Fetch} {rest rest' : List (String × Fetch)}
      (first : Alike fetch fetch') (others : AllAlike rest rest') :
      AllAlike ((name, fetch) :: rest) ((name, fetch') :: rest')

end

theorem Alike.layers {fetch fetch' : Fetch} (alike : fetch.Alike fetch') :
    fetch.layer.Alike fetch'.layer := by
  cases alike with
  | mk layers _ => exact layers

end Fetch

theorem Fetch.ofLayer_eq (layer : Layer) :
    Fetch.ofLayer layer
      = .mk layer (layer.relationships.map (fun r => (r.1, Fetch.ofLayer r.2))) := by
  rw [Fetch.ofLayer]
  congr 1
  exact List.attach_map_val (f := fun (r : String × Layer) => (r.1, Fetch.ofLayer r.2))

/-- **What is fetched for layers that are alike is alike.** -/
theorem Layer.Alike.ofLayer {layer layer' : Layer} (alike : layer.Alike layer') :
    (Fetch.ofLayer layer).Alike (Fetch.ofLayer layer') := by
  -- Layers below weigh less, though they are no parts of the layer.
  induction weight : layer.weight using Nat.strongRecOn generalizing layer layer' with
  | ind n ih =>
    subst weight
    have smaller : ∀ name sub, (name, sub) ∈ layer.relationships → sub.weight < layer.weight :=
      fun name sub => Layer.weight_of_mem_relationships
    have below := alike.relationships
    rw [Fetch.ofLayer_eq layer, Fetch.ofLayer_eq layer']
    refine .mk alike ?_
    generalize layer.relationships = layers at smaller below
    generalize layer'.relationships = layers' at below
    induction layers generalizing layers' with
    | nil =>
      cases below
      exact .nil
    | cons entry rest rest_ih =>
      cases below with
      | cons first others =>
        refine .cons (ih _ (smaller _ _ List.mem_cons_self) first rfl) ?_
        exact rest_ih (fun name sub mem => smaller name sub (List.mem_cons_of_mem _ mem)) _ others

/-! ### Requests -/

/-- The page that a request asks for. -/
def Request.page (request : Request) : Pagination :=
  request.layer.pagination?.getD Compile.firstPage

/-- **Two requests differ only in constants and in their page**: in constants of filters other than
null, and in the size and number of the page, of which both are the first or neither is. -/
structure Request.Alike (request request' : Request) : Prop where
  resourceType : request.resourceType = request'.resourceType
  layer : request.layer.Alike request'.layer
  page : 1 < request.page.pageNumber ↔ 1 < request'.page.pageNumber

end ResourceQuery
