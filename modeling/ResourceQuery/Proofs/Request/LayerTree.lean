import Mathlib.Data.List.Nodup
import ResourceQuery.Proofs.Request.Likeness

/-!
# The layers of a request and their paths

A layer is reached from the primary layer by following relationships.  Where relationships are
selected or included more than once they are merged, so that no two layers have the same path.

## Main Definitions

- `Layer.Distinct`: no selection names a relationship twice.
- `Fetch.Distinct`: no relationship is followed twice from the same place.
- `Fetch.layersFrom`, `Fetch.layers`: the layers of a tree with their paths.

## Main Statements

- `Fetch.distinct_ofLayer`: merging inclusions keeps relationships apart.
- `Fetch.nodup_layersFrom`: no two layers of a tree have the same path.

## Design Notes

A selection assigns layers to names of relationships.  It is kept as a list, because the order in
which relationships are named matters.  `Layer.Distinct` says that the list is such an assignment.
-/

namespace ResourceQuery

/-! ### Selections -/

namespace Layer

mutual

/-- **No selection names a relationship twice**, neither that of a layer nor that of a layer
below it. -/
def Distinct : Layer → Prop
  | ⟨_, _, _, selection?, _⟩ => SelectionDistinct selection?

/-- A selection names no relationship twice. -/
def SelectionDistinct : Option Selection → Prop
  | none => True
  | some ⟨_, relationships⟩ => (relationships.map Prod.fst).Nodup ∧ AllDistinct relationships

/-- The selections of several layers name no relationship twice. -/
def AllDistinct : List (String × Layer) → Prop
  | [] => True
  | (_, layer) :: rest => Distinct layer ∧ AllDistinct rest

end

theorem distinct_empty : Layer.empty.Distinct := by
  simp only [Layer.empty, Distinct, SelectionDistinct]

theorem distinct_addInclusions {layer : Layer} (distinct : layer.Distinct)
    (more : List Inclusion) : (layer.addInclusions more).Distinct := by
  cases layer
  simp only [addInclusions, Distinct] at distinct ⊢
  exact distinct

theorem AllDistinct.of_mem {layers : List (String × Layer)} (distinct : AllDistinct layers)
    {r : String × Layer} (mem : r ∈ layers) : r.2.Distinct := by
  induction layers with
  | nil => cases mem
  | cons entry rest ih =>
    simp only [AllDistinct] at distinct
    rcases List.mem_cons.mp mem with rfl | mem
    · exact distinct.1
    · exact ih distinct.2 mem

/-- The names of layers after an inclusion was merged: that of the inclusion comes last if it is
new. -/
theorem names_mergeInclusion (inclusion : Inclusion) (layers : List (String × Layer)) :
    (mergeInclusion inclusion layers).map Prod.fst
      = if inclusion.relationship ∈ layers.map Prod.fst then layers.map Prod.fst
        else layers.map Prod.fst ++ [inclusion.relationship] := by
  induction layers with
  | nil => simp [mergeInclusion]
  | cons entry rest ih =>
    obtain ⟨key, layer⟩ := entry
    rw [mergeInclusion]
    by_cases same : key = inclusion.relationship
    · simp [same]
    · simp only [if_neg same, List.map_cons, ih, List.mem_cons, Ne.symm same, false_or]
      split <;> rfl

/-- An inclusion goes to the layer of its relationship if there is one. -/
theorem nodup_names_mergeInclusion (inclusion : Inclusion) {layers : List (String × Layer)}
    (names : (layers.map Prod.fst).Nodup) :
    ((mergeInclusion inclusion layers).map Prod.fst).Nodup := by
  rw [names_mergeInclusion]
  split
  · exact names
  · rename_i new
    exact names.append (List.nodup_singleton _) (List.disjoint_singleton.mpr new)

theorem allDistinct_mergeInclusion (inclusion : Inclusion) {layers : List (String × Layer)}
    (distinct : AllDistinct layers) : AllDistinct (mergeInclusion inclusion layers) := by
  induction layers with
  | nil =>
    simp only [mergeInclusion, AllDistinct]
    exact ⟨distinct_addInclusions distinct_empty _, trivial⟩
  | cons entry rest ih =>
    obtain ⟨key, layer⟩ := entry
    simp only [AllDistinct] at distinct
    simp only [mergeInclusion]
    split
    · simp only [AllDistinct]
      exact ⟨distinct_addInclusions distinct.1 _, distinct.2⟩
    · simp only [AllDistinct]
      exact ⟨distinct.1, ih distinct.2⟩

/-- A selection names no relationship twice. -/
theorem Distinct.selected {layer : Layer} (distinct : layer.Distinct) :
    (layer.selected.map Prod.fst).Nodup ∧ AllDistinct layer.selected := by
  obtain ⟨_, _, _, selection?, _⟩ := layer
  simp only [Distinct] at distinct
  cases selection? with
  | none =>
    simp only [Layer.selected, AllDistinct]
    exact ⟨List.nodup_nil, trivial⟩
  | some selection =>
    obtain ⟨_, relationships⟩ := selection
    simp only [SelectionDistinct] at distinct
    exact distinct

/-- **Merging inclusions keeps relationships apart.** -/
theorem Distinct.relationships {layer : Layer} (distinct : layer.Distinct) :
    (layer.relationships.map Prod.fst).Nodup ∧ AllDistinct layer.relationships := by
  have selected := distinct.selected
  unfold Layer.relationships
  generalize layer.selected = layers at selected
  induction layer.inclusions generalizing layers with
  | nil => exact selected
  | cons inclusion rest ih =>
    exact ih (mergeInclusion inclusion layers)
      ⟨nodup_names_mergeInclusion inclusion selected.1,
        allDistinct_mergeInclusion inclusion selected.2⟩

end Layer

/-! ### Trees -/

namespace Fetch

mutual

/-- **No relationship is followed twice** from the same place of a tree. -/
def Distinct : Fetch → Prop
  | mk _ relationships => (relationships.map Prod.fst).Nodup ∧ AllDistinct relationships

/-- No relationship is followed twice from the same place below several others. -/
def AllDistinct : List (String × Fetch) → Prop
  | [] => True
  | (_, fetch) :: rest => Distinct fetch ∧ AllDistinct rest

end

theorem allDistinct_map {layers : List (String × Layer)}
    (below : ∀ r ∈ layers, (ofLayer r.2).Distinct) :
    AllDistinct (layers.map (fun r => (r.1, ofLayer r.2))) := by
  induction layers with
  | nil => simp only [List.map_nil, AllDistinct]
  | cons entry rest ih =>
    simp only [List.map_cons, AllDistinct]
    exact ⟨below entry List.mem_cons_self, ih fun r mem => below r (List.mem_cons_of_mem _ mem)⟩

/-- **No relationship is followed twice from the same place** if no selection names one twice. -/
theorem distinct_ofLayer {layer : Layer} (distinct : layer.Distinct) :
    (ofLayer layer).Distinct := by
  -- Layers below weigh less, though they are no parts of the layer.
  induction weight : layer.weight using Nat.strongRecOn generalizing layer with
  | ind n ih =>
    subst weight
    obtain ⟨names, below⟩ := distinct.relationships
    rw [ofLayer_eq, Distinct, List.map_map]
    exact ⟨names, allDistinct_map fun r mem =>
      ih _ (Layer.weight_of_mem_relationships mem) (below.of_mem mem) rfl⟩

/-! ### Paths -/

mutual

/-- **The layers of a tree with their paths**, if the tree itself is reached by a path. -/
def layersFrom (path : Path) : Fetch → List (Path × Layer)
  | mk layer relationships => (path, layer) :: allLayersFrom path relationships

/-- The layers of several trees with their paths, if relationships lead to them from a place that is
reached by a path. -/
def allLayersFrom (path : Path) : List (String × Fetch) → List (Path × Layer)
  | [] => []
  | (name, fetch) :: rest => layersFrom (path ++ [name]) fetch ++ allLayersFrom path rest

end

/-- **The layers of a tree with their paths**, that of the tree itself first. -/
def layers (fetch : Fetch) : List (Path × Layer) :=
  fetch.layersFrom []

theorem layersFrom_eq (path : Path) (fetch : Fetch) :
    fetch.layersFrom path = (path, fetch.layer) :: allLayersFrom path fetch.relationships := by
  cases fetch
  simp only [layersFrom, layer, relationships]

mutual

/-- The layers of a tree are reached from where the tree is. -/
theorem prefix_of_mem_layersFrom {path : Path} {reached : Path × Layer} : (fetch : Fetch) →
    reached ∈ fetch.layersFrom path → path <+: reached.1
  | mk layer relationships, mem => by
    simp only [layersFrom, List.mem_cons] at mem
    rcases mem with rfl | mem
    · exact List.prefix_refl _
    · obtain ⟨name, -, further⟩ := prefix_of_mem_allLayersFrom relationships mem
      exact (List.prefix_append path [name]).trans further

theorem prefix_of_mem_allLayersFrom {path : Path} {reached : Path × Layer} :
    (relationships : List (String × Fetch)) → reached ∈ allLayersFrom path relationships →
      ∃ name ∈ relationships.map Prod.fst, path ++ [name] <+: reached.1
  | [], mem => by
    simp only [allLayersFrom, List.not_mem_nil] at mem
  | (name, fetch) :: rest, mem => by
    simp only [allLayersFrom, List.mem_append] at mem
    rcases mem with mem | mem
    · exact ⟨name, List.mem_cons_self, prefix_of_mem_layersFrom fetch mem⟩
    · obtain ⟨other, listed, further⟩ := prefix_of_mem_allLayersFrom rest mem
      exact ⟨other, List.mem_cons_of_mem _ listed, further⟩

end

/-- Two steps from the same place that lead to the same layer are the same. -/
theorem eq_of_prefix_snoc {path reached : Path} {name other : String}
    (h : path ++ [name] <+: reached) (h' : path ++ [other] <+: reached) : name = other := by
  have same := (List.prefix_of_prefix_length_le h h' (by simp)).eq_of_length (by simp)
  exact List.head_eq_of_cons_eq (List.append_cancel_left same)

mutual

/-- **No two layers of a tree have the same path.** -/
theorem nodup_layersFrom {path : Path} : (fetch : Fetch) → fetch.Distinct →
    ((fetch.layersFrom path).map Prod.fst).Nodup
  | mk layer relationships, distinct => by
    simp only [Distinct] at distinct
    simp only [layersFrom, List.map_cons, List.nodup_cons]
    refine ⟨fun mem => ?_, nodup_allLayersFrom relationships distinct.1 distinct.2⟩
    obtain ⟨reached, listed, same⟩ := List.mem_map.mp mem
    obtain ⟨name, -, further⟩ := prefix_of_mem_allLayersFrom relationships listed
    have longer := further.length_le
    rw [same, List.length_append, List.length_singleton] at longer
    exact absurd longer (Nat.not_succ_le_self _)

theorem nodup_allLayersFrom {path : Path} : (relationships : List (String × Fetch)) →
    (relationships.map Prod.fst).Nodup → AllDistinct relationships →
      ((allLayersFrom path relationships).map Prod.fst).Nodup
  | [], _, _ => by
    simp only [allLayersFrom, List.map_nil, List.nodup_nil]
  | (name, fetch) :: rest, names, distinct => by
    simp only [AllDistinct] at distinct
    rw [List.map_cons, List.nodup_cons] at names
    simp only [allLayersFrom, List.map_append]
    refine List.nodup_append.mpr ⟨nodup_layersFrom fetch distinct.1,
      nodup_allLayersFrom rest names.2 distinct.2, ?_⟩
    rintro _ mem _ mem' rfl
    obtain ⟨reached, listed, rfl⟩ := List.mem_map.mp mem
    obtain ⟨reached', listed', same⟩ := List.mem_map.mp mem'
    obtain ⟨other, among, further⟩ := prefix_of_mem_allLayersFrom rest listed'
    rw [same] at further
    have own := prefix_of_mem_layersFrom fetch listed
    rw [← eq_of_prefix_snoc own further] at among
    exact names.1 among

end

end Fetch

end ResourceQuery
