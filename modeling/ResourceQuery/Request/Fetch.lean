import ResourceQuery.Request.Basic

/-!
# What is fetched

Related resources can be asked for in two ways: by selecting a relationship with a layer of its
own, and by including it by name.  Both are merged into one tree, in which each relationship
occurs once at each place.

## Main Definitions

- `Layer.relationships`: the relationships to follow from a layer, with the layer of each.
- `Fetch`: a layer with everything to be followed from it.
- `Fetch.ofLayer`: the tree of a layer.

## Design Notes

Merging moves inclusions from a layer into the layers below it, which are therefore no parts of
the layer.  But every inclusion is moved at most once, so a layer counted together with all its
inclusions outweighs the layers below it.
-/

namespace ResourceQuery

/-! ### Merging inclusions -/

/-- Add inclusions that are not there yet. -/
def Inclusion.merge (inclusions more : List Inclusion) : List Inclusion :=
  more.foldl (fun known c => if c ∈ known then known else known ++ [c]) inclusions

namespace Layer

/-- A layer with further inclusions. -/
def addInclusions (layer : Layer) (more : List Inclusion) : Layer :=
  { layer with inclusions := Inclusion.merge layer.inclusions more }

/-- Merge an inclusion into the layers of a list: into the layer of its relationship, or into an
empty one added at the end. -/
def mergeInclusion (inclusion : Inclusion) : List (String × Layer) → List (String × Layer)
  | [] => [(inclusion.relationship, Layer.empty.addInclusions inclusion.children)]
  | (name, layer) :: rest =>
    if name = inclusion.relationship then (name, layer.addInclusions inclusion.children) :: rest
    else (name, layer) :: mergeInclusion inclusion rest

/-- The relationships that a layer selects. -/
def selected (layer : Layer) : List (String × Layer) :=
  match layer.selection? with
  | some selection => selection.relationships
  | none => []

/-- The relationships to follow from a layer, with the layer of each: the selected ones first, then
those that are only included. -/
def relationships (layer : Layer) : List (String × Layer) :=
  layer.inclusions.foldl (fun layers i => mergeInclusion i layers) layer.selected

end Layer

/-! ### Weights -/

namespace Inclusion

mutual

/-- The number of relationships in an inclusion. -/
def weight : Inclusion → Nat
  | mk _ children => weights children + 1

/-- The number of relationships in a list of inclusions. -/
def weights : List Inclusion → Nat
  | [] => 0
  | inclusion :: rest => weight inclusion + weights rest

end

theorem weights_append (as bs : List Inclusion) : weights (as ++ bs) = weights as + weights bs := by
  induction as with
  | nil => simp [weights]
  | cons a as ih => simp [weights, ih, Nat.add_assoc]

theorem weights_merge (more inclusions : List Inclusion) :
    weights (merge inclusions more) ≤ weights inclusions + weights more := by
  induction more generalizing inclusions with
  | nil => simp [merge, weights]
  | cons c more ih =>
    have step := ih (if c ∈ inclusions then inclusions else inclusions ++ [c])
    have single : weights (if c ∈ inclusions then inclusions else inclusions ++ [c])
        ≤ weights inclusions + weight c := by
      split
      · omega
      · simp [weights_append, weights]
    simp only [merge, List.foldl_cons, weights] at step ⊢
    omega

end Inclusion

namespace Layer

mutual

/-- The number of layers and inclusions in a layer. -/
def weight : Layer → Nat
  | ⟨_, _, _, selection?, inclusions⟩ =>
    selectionWeight selection? + Inclusion.weights inclusions + 1

/-- The number of layers and inclusions in a selection that may be absent. -/
def selectionWeight : Option Selection → Nat
  | none => 0
  | some ⟨_, relationships⟩ => weights relationships

/-- The number of layers and inclusions in a list of layers. -/
def weights : List (String × Layer) → Nat
  | [] => 0
  | (_, layer) :: rest => weight layer + weights rest

end

theorem weight_addInclusions (layer : Layer) (more : List Inclusion) :
    (layer.addInclusions more).weight ≤ layer.weight + Inclusion.weights more := by
  obtain ⟨_, _, _, _, inclusions⟩ := layer
  have := Inclusion.weights_merge more inclusions
  simp only [addInclusions, weight]
  omega

theorem weights_mergeInclusion (inclusion : Inclusion) (layers : List (String × Layer)) :
    weights (mergeInclusion inclusion layers) ≤ weights layers + inclusion.weight := by
  obtain ⟨relationship, children⟩ := inclusion
  induction layers with
  | nil =>
    have := weight_addInclusions Layer.empty children
    simp only [mergeInclusion, weights, Inclusion.children, Inclusion.weight]
    simp only [Layer.empty, weight, selectionWeight, Inclusion.weights] at this
    simp only [Layer.empty]
    omega
  | cons head rest ih =>
    obtain ⟨name, layer⟩ := head
    unfold mergeInclusion
    split
    · have := weight_addInclusions layer children
      simp only [weights, Inclusion.children, Inclusion.weight]
      omega
    · simp only [weights]
      omega

theorem weights_foldl (inclusions : List Inclusion) (layers : List (String × Layer)) :
    weights (inclusions.foldl (fun layers i => mergeInclusion i layers) layers)
      ≤ weights layers + Inclusion.weights inclusions := by
  induction inclusions generalizing layers with
  | nil => simp [Inclusion.weights]
  | cons i inclusions ih =>
    have step := ih (mergeInclusion i layers)
    have single := weights_mergeInclusion i layers
    simp only [List.foldl_cons, Inclusion.weights]
    omega

theorem weight_le_weights {name : String} {layer : Layer} {layers : List (String × Layer)}
    (h : (name, layer) ∈ layers) : layer.weight ≤ weights layers := by
  induction layers with
  | nil => simp at h
  | cons head rest ih =>
    obtain ⟨key, other⟩ := head
    simp only [weights]
    rcases List.mem_cons.mp h with h | h
    · injection h with _ h
      rw [h]
      omega
    · have := ih h
      omega

/-- All that is followed from a layer weighs less than the layer. -/
theorem weights_relationships_lt (layer : Layer) : weights layer.relationships < layer.weight := by
  have merged := weights_foldl layer.inclusions layer.selected
  have whole : layer.weight = weights layer.selected + Inclusion.weights layer.inclusions + 1 := by
    obtain ⟨_, _, _, selection?, _⟩ := layer
    cases selection? with
    | none => simp [weight, selected, selectionWeight, weights]
    | some selection =>
      obtain ⟨_, _⟩ := selection
      simp [weight, selected, selectionWeight]
  unfold relationships
  omega

/-- What is followed from a layer weighs less than the layer. -/
theorem weight_of_mem_relationships {name : String} {sub layer : Layer}
    (h : (name, sub) ∈ layer.relationships) : sub.weight < layer.weight :=
  Nat.lt_of_le_of_lt (weight_le_weights h) layer.weights_relationships_lt

end Layer

/-! ### The tree -/

/-- A layer with everything to be followed from it. -/
inductive Fetch where
  | mk (layer : Layer) (relationships : List (String × Fetch))

namespace Fetch

/-- What is wanted at the root of the tree. -/
def layer : Fetch → Layer
  | mk layer _ => layer

/-- What is followed from the root, in order. -/
def relationships : Fetch → List (String × Fetch)
  | mk _ relationships => relationships

/-- The tree of a layer. -/
def ofLayer (layer : Layer) : Fetch :=
  mk layer (layer.relationships.attach.map (fun r => (r.val.1, ofLayer r.val.2)))
termination_by layer.weight
decreasing_by
  exact Layer.weight_of_mem_relationships (Subtype.property _)

end Fetch

end ResourceQuery
