import ResourceQuery.Json.Decode
import ResourceQuery.Request.Basic

/-!
# Requests as documents

Requests written as JSON, and read back.  Absent parts and empty inclusions are left out.

## Main Definitions

- `Request.toJson`, `Request.ofJson?`: a request as a document and back.
- `Layer.toJson`, `Layer.ofJson?`: the same for what is wanted at one place.

## Design Notes

A document is what a text spells, member by member in the order in which they are written.  A map
that keeps its members sorted would forget the order of the layers in a selection.
-/

namespace ResourceQuery

open Sql (MatchKind)

/-! ### Words and paths -/

/-- A path as a document. -/
def Path.toJson (path : Path) : Json :=
  Json.ofList .string path

/-- The path of a document. -/
def Path.ofJson? (j : Json) : Option Path :=
  Json.list? Json.string? j

namespace ComparisonKind

/-- A kind of comparison is written as a word. -/
def toJson : ComparisonKind → Json
  | equals => .string "equals"
  | lessThan => .string "lessThan"
  | lessOrEqual => .string "lessOrEqual"
  | greaterThan => .string "greaterThan"
  | greaterOrEqual => .string "greaterOrEqual"

/-- The kind of comparison of a word. -/
def ofJson? (j : Json) : Option ComparisonKind := do
  match ← j.looseWord? with
  | "equals" => some equals
  | "lessThan" => some lessThan
  | "lessOrEqual" => some lessOrEqual
  | "greaterThan" => some greaterThan
  | "greaterOrEqual" => some greaterOrEqual
  | _ => none

end ComparisonKind

/-- The word for the place where a text has to occur. -/
def matchKindToJson : MatchKind → Json
  | .contains => .string "contains"
  | .startsWith => .string "startsWith"
  | .endsWith => .string "endsWith"

/-- The place that a word stands for. -/
def matchKindOfWord? : String → Option MatchKind
  | "contains" => some .contains
  | "startsWith" => some .startsWith
  | "endsWith" => some .endsWith
  | _ => none

/-- The place where a text has to occur, in a document. -/
def matchKindOfJson? (j : Json) : Option MatchKind := do
  matchKindOfWord? (← j.looseWord?)

/-! ### Filters -/

namespace Expression

/-- An expression as a document. -/
def toJson : Expression → Json
  | field path => .object [("type", .string "field"), ("path", path.toJson)]
  | constant value => .object [("type", .string "constant"), ("value", value)]
  | null => .object [("type", .string "null")]
  | count relationship =>
    .object [("type", .string "count"), ("relationship", relationship.toJson)]

/-- The names that tell expressions apart. -/
def tags : List String := ["field", "constant", "null", "count"]

/-- The expression of a document. -/
def ofJson? (j : Json) : Option Expression := do
  let members ← j.members?
  match ← Json.required? members "type" (Json.tag? tags) with
  | "field" => return field (← Json.required? members "path" Path.ofJson?)
  | "constant" => return constant (← Json.required? members "value" some)
  | "null" => return null
  | "count" => return count (← Json.required? members "relationship" Path.ofJson?)
  | _ => none

end Expression

namespace Filter

mutual

/-- A filter as a document. -/
def toJson : Filter → Json
  | comparison kind left right =>
    .object [("type", .string "comparison"), ("operator", kind.toJson), ("left", left.toJson),
      ("right", right.toJson)]
  | and terms => .object [("type", .string "and"), ("terms", .array (listToJson terms))]
  | or terms => .object [("type", .string "or"), ("terms", .array (listToJson terms))]
  | not term => .object [("type", .string "not"), ("expression", toJson term)]
  | textMatch field text kind =>
    .object [("type", .string "textMatch"), ("field", field.toJson), ("text", .string text),
      ("matchKind", matchKindToJson kind)]
  | any field values =>
    .object [("type", .string "any"), ("field", field.toJson), ("values", .array values)]
  | has relationship filter? =>
    .object ([("type", .string "has"), ("relationship", relationship.toJson)]
      ++ optionToJson filter?)
  | isType relationship derivedType =>
    .object [("type", .string "isType"), ("relationship", relationship.toJson),
      ("derivedType", .string derivedType)]

/-- Filters as documents. -/
def listToJson : List Filter → List Json
  | [] => []
  | filter :: rest => toJson filter :: listToJson rest

/-- A filter that may be absent as a member. -/
def optionToJson : Option Filter → List (String × Json)
  | none => []
  | some filter => [("filter", toJson filter)]

end

/-- The names that tell filters apart. -/
def tags : List String :=
  ["comparison", "and", "or", "not", "textMatch", "any", "has", "isType"]

mutual

/-- The filter of a document. -/
def ofJson? : Json → Option Filter
  | .object members => do
    match ← Json.required? members "type" (Json.tag? tags) with
    | "comparison" =>
      let kind ← Json.required? members "operator" ComparisonKind.ofJson?
      let left ← Json.required? members "left" Expression.ofJson?
      let right ← Json.required? members "right" Expression.ofJson?
      return comparison kind left right
    | "and" => return and (← termsMember? members)
    | "or" => return or (← termsMember? members)
    | "not" => return not (← termMember? members)
    | "textMatch" =>
      let field ← Json.required? members "field" Path.ofJson?
      let text ← Json.required? members "text" Json.string?
      let kind ← Json.required? members "matchKind" matchKindOfJson?
      return textMatch field text kind
    | "any" =>
      let field ← Json.required? members "field" Path.ofJson?
      let values ← Json.required? members "values" Json.items?
      return any field values
    | "has" =>
      let relationship ← Json.required? members "relationship" Path.ofJson?
      return has relationship (← filterMember? members)
    | "isType" =>
      let relationship ← Json.defaulted? members "relationship" [] Path.ofJson?
      let derivedType ← Json.required? members "derivedType" Json.string?
      return isType relationship derivedType
    | _ => none
  | _ => none

/-- The filters of the member `terms`. -/
def termsMember? : List (String × Json) → Option (List Filter)
  | [] => none
  | (name, j) :: rest => if name = "terms" then listOfJson? j else termsMember? rest

/-- The filter of the member `expression`. -/
def termMember? : List (String × Json) → Option Filter
  | [] => none
  | (name, j) :: rest => if name = "expression" then ofJson? j else termMember? rest

/-- The filter of the member `filter`, which may be absent or null. -/
def filterMember? : List (String × Json) → Option (Option Filter)
  | [] => some none
  | (name, j) :: rest =>
    if name = "filter" then (if j = .null then some none else some <$> ofJson? j)
    else filterMember? rest

/-- The filters of an array. -/
def listOfJson? : Json → Option (List Filter)
  | .array items => itemsOfJson? items
  | _ => none

/-- The filters of a list of documents. -/
def itemsOfJson? : List Json → Option (List Filter)
  | [] => some []
  | j :: rest => do
    let filter ← ofJson? j
    return filter :: (← itemsOfJson? rest)

end

end Filter

/-! ### Sorting, pages and inclusions -/

namespace SortTarget

/-- What resources are sorted by, as a document. -/
def toJson : SortTarget → Json
  | field path => .object [("type", .string "field"), ("path", path.toJson)]
  | count relationship =>
    .object [("type", .string "count"), ("relationship", relationship.toJson)]

/-- The names that tell sort targets apart. -/
def tags : List String := ["field", "count"]

/-- What resources are sorted by, in a document. -/
def ofJson? (j : Json) : Option SortTarget := do
  let members ← j.members?
  match ← Json.required? members "type" (Json.tag? tags) with
  | "field" => return field (← Json.required? members "path" Path.ofJson?)
  | "count" => return count (← Json.required? members "relationship" Path.ofJson?)
  | _ => none

end SortTarget

namespace SortElement

/-- The word for a direction. -/
def directionToJson (descending : Bool) : Json :=
  .string (if descending then "descending" else "ascending")

/-- The direction of a word. -/
def directionOfJson? (j : Json) : Option Bool := do
  match ← j.looseWord? with
  | "ascending" => some false
  | "descending" => some true
  | _ => none

/-- A criterion for sorting as a document. -/
def toJson (e : SortElement) : Json :=
  .object [("target", e.target.toJson), ("direction", directionToJson e.descending)]

/-- The criterion for sorting of a document. -/
def ofJson? (j : Json) : Option SortElement := do
  let members ← j.members?
  let target ← Json.required? members "target" SortTarget.ofJson?
  let descending ← Json.defaulted? members "direction" false directionOfJson?
  return { target, descending }

end SortElement

namespace Pagination

/-- A page as a document. -/
def toJson (p : Pagination) : Json :=
  .object (("pageNumber", Json.ofUInt32 p.pageNumber)
    :: Json.memberOf "pageSize" Json.ofUInt32 p.pageSize?)

/-- The page of a document. -/
def ofJson? (j : Json) : Option Pagination := do
  let members ← j.members?
  let pageNumber ← Json.defaulted? members "pageNumber" 1 Json.uint32?
  let pageSize? ← Json.optional? members "pageSize" Json.uint32?
  return { pageNumber, pageSize? }

end Pagination

namespace Inclusion

mutual

/-- An inclusion as a document. -/
def toJson : Inclusion → Json
  | mk relationship children =>
    .object (("relationship", .string relationship)
      :: (if children.isEmpty then [] else [("children", .array (listToJson children))]))

/-- Inclusions as documents. -/
def listToJson : List Inclusion → List Json
  | [] => []
  | inclusion :: rest => toJson inclusion :: listToJson rest

end

mutual

/-- The inclusion of a document. -/
def ofJson? : Json → Option Inclusion
  | .object members => do
    let relationship ← Json.required? members "relationship" Json.string?
    return mk relationship (← childrenMember? members)
  | _ => none

/-- The inclusions of the member `children`, which may be absent. -/
def childrenMember? : List (String × Json) → Option (List Inclusion)
  | [] => some []
  | (name, j) :: rest => if name = "children" then listOfJson? j else childrenMember? rest

/-- The inclusions of an array. -/
def listOfJson? : Json → Option (List Inclusion)
  | .array items => itemsOfJson? items
  | _ => none

/-- The inclusions of a list of documents. -/
def itemsOfJson? : List Json → Option (List Inclusion)
  | [] => some []
  | j :: rest => do
    let inclusion ← ofJson? j
    return inclusion :: (← itemsOfJson? rest)

end

end Inclusion

/-! ### Layers -/

namespace Layer

mutual

/-- The members that describe a layer. -/
def toMembers : Layer → List (String × Json)
  | ⟨filter?, sort?, pagination?, selection?, inclusions⟩ =>
    Json.memberOf "filter" Filter.toJson filter?
      ++ Json.memberOf "sort" (Json.ofList SortElement.toJson) sort?
      ++ Json.memberOf "pagination" Pagination.toJson pagination?
      ++ selectionMember selection?
      ++ (if inclusions.isEmpty then []
        else [("include", .array (Inclusion.listToJson inclusions))])

/-- A selection that may be absent as a member. -/
def selectionMember : Option Selection → List (String × Json)
  | none => []
  | some ⟨attributes, relationships⟩ =>
    [("selection", .object [("attributes", Json.ofList .string attributes),
      ("relationships", .object (namedToJson relationships))])]

/-- Layers by name as members. -/
def namedToJson : List (String × Layer) → List (String × Json)
  | [] => []
  | (name, layer) :: rest => (name, .object (toMembers layer)) :: namedToJson rest

end

/-- A layer as a document. -/
def toJson (layer : Layer) : Json :=
  .object layer.toMembers

mutual

/-- The layer of a document. -/
def ofJson? : Json → Option Layer
  | .object members => do
    let filter? ← Json.optional? members "filter" Filter.ofJson?
    let sort? ← Json.optional? members "sort" (Json.list? SortElement.ofJson?)
    let pagination? ← Json.optional? members "pagination" Pagination.ofJson?
    let selection? ← selectionMember? members
    let inclusions ← Json.defaulted? members "include" [] Inclusion.listOfJson?
    return { filter?, sort?, pagination?, selection?, inclusions }
  | _ => none

/-- The selection of the member `selection`, which may be absent or null. -/
def selectionMember? : List (String × Json) → Option (Option Selection)
  | [] => some none
  | (name, j) :: rest =>
    if name = "selection" then selectionOfJson? j else selectionMember? rest

/-- The selection of a document that may be null. -/
def selectionOfJson? : Json → Option (Option Selection)
  | .null => some none
  | .object members => do
    let attributes ← Json.defaulted? members "attributes" [] (Json.list? Json.string?)
    let relationships ← relationshipsMember? members
    return some { attributes, relationships }
  | _ => none

/-- The layers of the member `relationships`, which may be absent. -/
def relationshipsMember? : List (String × Json) → Option (List (String × Layer))
  | [] => some []
  | (name, j) :: rest =>
    if name = "relationships" then namedOfJson? j else relationshipsMember? rest

/-- The layers by name of a document, in the order in which they are written. -/
def namedOfJson? : Json → Option (List (String × Layer))
  | .object members => namedOfMembers? members
  | _ => none

/-- The layers by name of a list of members. -/
def namedOfMembers? : List (String × Json) → Option (List (String × Layer))
  | [] => some []
  | (name, j) :: rest => do
    let layer ← ofJson? j
    return (name, layer) :: (← namedOfMembers? rest)

end

end Layer

namespace Request

/-- The document that the text of a request spells: its resource type, then the members of its layer
in the order in which they are written. -/
def toJson (r : Request) : Json :=
  .object (("resourceType", .string r.resourceType) :: r.layer.toMembers)

/-- The request that a document describes as it is read from a text, member by member. -/
def ofJson? (j : Json) : Option Request := do
  let members ← j.members?
  let resourceType ← Json.required? members "resourceType" Json.string?
  let layer ← Layer.ofJson? j
  return { resourceType, layer }

end Request

end ResourceQuery
