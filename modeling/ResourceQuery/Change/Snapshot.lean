import ResourceQuery.Change.ResourceId
import ResourceQuery.Json.Reading

/-!
# Snapshots of resources

## Main Definitions

- `Snapshot`: the attributes of a resource and the resources it is related to.
- `Snapshot.toJson`, `Snapshot.ofReading?`: a snapshot as a document and back.
-/

namespace ResourceQuery

open Json (Reading)

/-- The state of a resource.  What a snapshot does not mention is unknown, or stays as it is. -/
structure Snapshot where
  id? : Option ResourceId
  attributes : Dict Json
  toOne : Dict (Option ResourceId)
  toMany : Dict IdSet

namespace Snapshot

/-- The snapshot that mentions nothing. -/
def empty : Snapshot := ⟨none, ∅, ∅, ∅⟩

instance : Inhabited Snapshot := ⟨empty⟩

/-- A snapshot as a document. -/
def toJson (s : Snapshot) : Json :=
  .object (Json.memberOf "id" ResourceId.toJson s.id?
    ++ [("attributes", Json.ofDict id s.attributes),
      ("toOne", Json.ofDict (Json.ofOption ResourceId.toJson) s.toOne),
      ("toMany", Json.ofDict IdSet.toJson s.toMany)])

/-- The snapshot of a document. -/
def ofReading? (r : Reading) : Option Snapshot := do
  let members ← r.members?
  let id? ← Reading.optional? members "id" ResourceId.ofJson?
  let attributes ← Reading.defaulted? members "attributes" ∅ (Json.dict? some)
  let toOne ← Reading.defaulted? members "toOne" ∅
    (Json.dict? (Json.nullable? ResourceId.ofJson?))
  let toMany ← Reading.defaulted? members "toMany" ∅ (Json.dict? IdSet.ofJson?)
  return { id?, attributes, toOne, toMany }

end Snapshot

end ResourceQuery
