import ResourceQuery.Change.Snapshot
import ResourceQuery.Proofs.Json.Decoding
import ResourceQuery.Proofs.Json.RoundTrip
import ResourceQuery.Request.Document

/-!
# Requests and snapshots are read back

A request or a snapshot that is written as a text and read again is the same as before, however its
filters, layers and inclusions are nested, as far as the text spells the document.  This depends on
the depth of the nesting and on the double-precision numbers.

## Main Statements

- `Filter.readsBack`, `Inclusion.ofJson?_toJson`, `Layer.ofJson?_of_lookup`: the parts of requests.
- `Request.readsBack`, `Snapshot.readsBack`: nothing is lost between a request or a snapshot and the
  document that its text spells.
- `Request.written_read_back`: requests and snapshots are read back from their texts.
- `Request.eleventh_not_read_back`: a request with a number that is read as another one, and one
  that is nested too deeply.
-/

namespace ResourceQuery

open Json (ReadsBack Reading)

/-! ### Words, paths and expressions -/

theorem readsBack_path : ReadsBack Path.ofJson? Path.toJson :=
  Json.readsBack_string.list

theorem readsBack_comparisonKind : ReadsBack ComparisonKind.ofJson? ComparisonKind.toJson := by
  intro kind
  cases kind <;> rfl

theorem readsBack_matchKind : ReadsBack matchKindOfJson? matchKindToJson := by
  intro kind
  cases kind <;> rfl

theorem Expression.readsBack : ReadsBack Expression.ofJson? Expression.toJson := by
  intro e
  cases e with
  | field path => simp [toJson, ofJson?, readsBack_path path]
  | constant value => simp [toJson, ofJson?]
  | null => simp [toJson, ofJson?]
  | count relationship => simp [toJson, ofJson?, readsBack_path relationship]

/-! ### Filters -/

namespace Filter

theorem toJson_ne_null (f : Filter) : f.toJson ≠ .null := by
  cases f <;> simp [toJson]

mutual

theorem ofJson?_toJson : (f : Filter) → ofJson? f.toJson = some f
  | comparison kind left right => by
    simp [toJson, ofJson?, readsBack_comparisonKind kind, Expression.readsBack left,
      Expression.readsBack right]
  | and terms => by
    simp [toJson, ofJson?, termsMember?, listOfJson?, itemsOfJson?_listToJson terms]
  | or terms => by
    simp [toJson, ofJson?, termsMember?, listOfJson?, itemsOfJson?_listToJson terms]
  | not term => by
    simp [toJson, ofJson?, termMember?, ofJson?_toJson term]
  | textMatch field text kind => by
    simp [toJson, ofJson?, readsBack_path field, readsBack_matchKind kind]
  | any field values => by
    simp [toJson, ofJson?, readsBack_path field]
  | has relationship filter? => by
    simp [toJson, ofJson?, readsBack_path relationship, filterMember?,
      filterMember?_optionToJson filter?]
  | isType relationship derivedType => by
    simp [toJson, ofJson?, readsBack_path relationship]

theorem itemsOfJson?_listToJson : (fs : List Filter) → itemsOfJson? (listToJson fs) = some fs
  | [] => rfl
  | f :: rest => by
    simp [listToJson, itemsOfJson?, ofJson?_toJson f, itemsOfJson?_listToJson rest]

theorem filterMember?_optionToJson :
    (f? : Option Filter) → filterMember? (optionToJson f?) = some f?
  | none => rfl
  | some f => by simp [optionToJson, filterMember?, ofJson?_toJson f, f.toJson_ne_null]

end

/-- **Filters are read back**, however deeply they are nested. -/
theorem readsBack : ReadsBack ofJson? toJson :=
  ofJson?_toJson

end Filter

/-! ### Sorting, pages and inclusions -/

theorem SortTarget.readsBack : ReadsBack SortTarget.ofJson? SortTarget.toJson := by
  intro target
  cases target with
  | field path => simp [toJson, ofJson?, readsBack_path path]
  | count relationship => simp [toJson, ofJson?, readsBack_path relationship]

theorem SortElement.readsBack : ReadsBack SortElement.ofJson? SortElement.toJson := by
  rintro ⟨target, descending⟩
  have direction : directionOfJson? (directionToJson descending) = some descending := by
    cases descending <;> rfl
  simp [toJson, ofJson?, SortTarget.readsBack target, direction]

theorem Pagination.readsBack : ReadsBack Pagination.ofJson? Pagination.toJson := by
  rintro ⟨pageNumber, pageSize?⟩
  have size : Json.optional? (Json.memberOf "pageSize" Json.ofUInt32 pageSize?) "pageSize"
      Json.uint32? = some pageSize? :=
    Json.optional?_of_lookup Json.readsBack_uint32 nofun (Json.lookup_memberOf ..)
  simp [toJson, ofJson?, Json.readsBack_uint32 pageNumber, size]

namespace Inclusion

mutual

theorem ofJson?_toJson : (inclusion : Inclusion) → ofJson? inclusion.toJson = some inclusion
  | mk relationship [] => by
    simp [toJson, ofJson?, childrenMember?]
  | mk relationship (child :: rest) => by
    simp [toJson, ofJson?, childrenMember?, listOfJson?, itemsOfJson?_listToJson (child :: rest)]

theorem itemsOfJson?_listToJson :
    (inclusions : List Inclusion) → itemsOfJson? (listToJson inclusions) = some inclusions
  | [] => rfl
  | inclusion :: rest => by
    simp [listToJson, itemsOfJson?, ofJson?_toJson inclusion, itemsOfJson?_listToJson rest]

end

end Inclusion

/-! ### Layers -/

namespace Layer

theorem selectionMember?_eq (members : List (String × Json)) :
    selectionMember? members
      = match members.lookup "selection" with
        | none => some none
        | some j => selectionOfJson? j := by
  induction members with
  | nil => rfl
  | cons member rest ih =>
    obtain ⟨name, j⟩ := member
    by_cases same : "selection" = name
    · simp [selectionMember?, same]
    · simp [selectionMember?, Json.lookup_cons_eq_ite, same, Ne.symm same, ih]

theorem lookup_selectionMember (selection? : Option Selection) {name : String}
    (other : name ≠ "selection") : (selectionMember selection?).lookup name = none := by
  cases selection? with
  | none => rfl
  | some selection =>
    obtain ⟨attributes, relationships⟩ := selection
    simp [selectionMember, Json.lookup_cons_eq_ite, other]

/-- The members of a layer by name. -/
theorem lookup_toMembers (layer : Layer) :
    layer.toMembers.lookup "filter" = layer.filter?.map Filter.toJson
      ∧ layer.toMembers.lookup "sort" = layer.sort?.map (Json.ofList SortElement.toJson)
      ∧ layer.toMembers.lookup "pagination" = layer.pagination?.map Pagination.toJson
      ∧ layer.toMembers.lookup "selection"
        = (selectionMember layer.selection?).lookup "selection"
      ∧ layer.toMembers.lookup "include" = if layer.inclusions.isEmpty then none
        else some (.array (Inclusion.listToJson layer.inclusions)) := by
  obtain ⟨filter?, sort?, pagination?, selection?, inclusions⟩ := layer
  cases inclusions <;>
    simp [toMembers, List.lookup_append, Json.lookup_memberOf, Json.lookup_cons_eq_ite,
      lookup_selectionMember]

mutual

/-- **Layers are read back** from any object that has their members, which may have others too. -/
theorem ofJson?_of_lookup : (layer : Layer) → (members : List (String × Json)) →
    (∀ name ∈ ["filter", "sort", "pagination", "selection", "include"],
      members.lookup name = layer.toMembers.lookup name) →
    ofJson? (.object members) = some layer
  | ⟨filter?, sort?, pagination?, selection?, inclusions⟩, members, same => by
    have ⟨ofFilter, ofSort, ofPagination, ofSelection, ofInclude⟩ :=
      lookup_toMembers ⟨filter?, sort?, pagination?, selection?, inclusions⟩
    have filter : Json.optional? members "filter" Filter.ofJson? = some filter? :=
      Json.optional?_of_lookup Filter.readsBack Filter.toJson_ne_null
        ((same _ (by simp)).trans ofFilter)
    have sort : Json.optional? members "sort" (Json.list? SortElement.ofJson?) = some sort? :=
      Json.optional?_of_lookup SortElement.readsBack.list nofun ((same _ (by simp)).trans ofSort)
    have pagination : Json.optional? members "pagination" Pagination.ofJson? = some pagination? :=
      Json.optional?_of_lookup Pagination.readsBack nofun ((same _ (by simp)).trans ofPagination)
    have selection : selectionMember? members = some selection? := by
      rw [selectionMember?_eq, same _ (by simp), ofSelection]
      exact selectionOfJson?_selectionMember selection?
    have inclusion : Json.defaulted? members "include" [] Inclusion.listOfJson?
        = some inclusions := by
      rw [Json.defaulted?, same _ (by simp), ofInclude]
      cases inclusions with
      | nil => rfl
      | cons first rest =>
        simp [Inclusion.listOfJson?, Inclusion.itemsOfJson?_listToJson (first :: rest)]
    simp [ofJson?, filter, sort, pagination, selection, inclusion]

theorem selectionOfJson?_selectionMember : (selection? : Option Selection) →
    (match (selectionMember selection?).lookup "selection" with
      | none => some none
      | some j => selectionOfJson? j) = some selection?
  | none => rfl
  | some ⟨attributes, relationships⟩ => by
    have names : Json.list? Json.string? (Json.ofList .string attributes) = some attributes :=
      Json.readsBack_string.list attributes
    simp [selectionMember, selectionOfJson?, names, relationshipsMember?, namedOfJson?,
      namedOfMembers?_namedToJson relationships]

theorem namedOfMembers?_namedToJson : (layers : List (String × Layer)) →
    namedOfMembers? (namedToJson layers) = some layers
  | [] => rfl
  | (name, layer) :: rest => by
    simp [namedToJson, namedOfMembers?, ofJson?_of_lookup layer layer.toMembers (fun _ _ => rfl),
      namedOfMembers?_namedToJson rest]

end

end Layer

/-- **Requests are read back**, however they are nested. -/
theorem Request.readsBack : ReadsBack Request.ofJson? Request.toJson := by
  rintro ⟨resourceType, layer⟩
  have layered : Layer.ofJson? (.object (("resourceType", .string resourceType) :: layer.toMembers))
      = some layer :=
    Layer.ofJson?_of_lookup layer _ (by simp [Json.lookup_cons_eq_ite])
  simp [Request.toJson, Request.ofJson?, layered]

/-! ### Snapshots -/

theorem ResourceId.readsBack : ReadsBack ResourceId.ofJson? ResourceId.toJson
  | .int n => by
    show (Json.ofInt64 n).int64?.map ResourceId.int = _
    rw [Json.readsBack_int64 n]
    rfl
  | .string _ => rfl

namespace IdSet

theorem insertId_of_greater {id : ResourceId} {ids : List ResourceId}
    (greater : ∀ other ∈ ids, other.Before id) : insertId id ids = ids ++ [id] := by
  induction ids with
  | nil => rfl
  | cons other rest ih =>
    rw [List.forall_mem_cons] at greater
    have irreflexive : ¬ id.Before id := by cases id <;> simp [ResourceId.Before]
    have after : ¬ id.Before other := fun less => irreflexive (less.trans greater.1)
    have different : id ≠ other := fun same => irreflexive (same ▸ greater.1)
    rw [insertId, if_neg after, if_neg different, ih greater.2, List.cons_append]

/-- Identifiers that ascend are inserted one after the other. -/
theorem foldl_insert_ids (ids : List ResourceId) (s : IdSet)
    (ascending : (s.ids ++ ids).Pairwise ResourceId.Before) :
    (ids.foldl insert s).ids = s.ids ++ ids := by
  induction ids generalizing s with
  | nil => simp
  | cons id rest ih =>
    have inserted : (s.insert id).ids = s.ids ++ [id] :=
      insertId_of_greater (fun other mem =>
        (List.pairwise_append.mp ascending).2.2 other mem id List.mem_cons_self)
    rw [List.foldl_cons, ih _ (by rw [inserted]; simpa using ascending), inserted]
    simp

theorem ofList_ids (s : IdSet) : ofList s.ids = s := by
  have same : (ofList s.ids).ids = s.ids := foldl_insert_ids s.ids empty s.sorted
  cases s
  cases h : ofList _
  rw [h] at same
  cases same
  rfl

theorem readsBack : ReadsBack ofJson? toJson := by
  intro s
  have ids : Json.list? ResourceId.ofJson? (Json.ofList ResourceId.toJson s.ids) = some s.ids :=
    ResourceId.readsBack.list s.ids
  simp [toJson, ofJson?, ids, ofList_ids]

end IdSet

/-- **Snapshots are read back.** -/
theorem Snapshot.readsBack : Reading.ReadsBack Snapshot.ofReading? Snapshot.toJson := by
  rintro ⟨id?, attributes, toOne, toMany⟩
  have attributesBack : Json.dict? some (Json.ofDict id attributes) = some attributes :=
    Json.ReadsBack.dict (fun _ => rfl) attributes
  have toOneBack := (ResourceId.readsBack.nullable ResourceId.toJson_ne_null).dict toOne
  have toManyBack := IdSet.readsBack.dict toMany
  cases id? with
  | none => simp [toJson, ofReading?, Json.memberOf, attributesBack, toOneBack, toManyBack]
  | some id =>
    have idBack : Json.nullable? ResourceId.ofJson? id.toJson = some (some id) :=
      ResourceId.readsBack.nullable ResourceId.toJson_ne_null (some id)
    simp [toJson, ofReading?, Json.memberOf, idBack, attributesBack, toOneBack, toManyBack]

/-! ### Texts -/

namespace Request

/-- **Requests and snapshots are read back from their texts.**  The text of a document spells it if
and only if it does not nest too deeply and each double-precision number in it is read back from its
own written form; the request or the snapshot is then read back, with its layers in their order. -/
theorem written_read_back :
    (∀ j : Json, Json.read? j.compact = some j
      ↔ j.nesting ≤ Json.Reader.maxDepth ∧ j.FloatsReadBack)
    ∧ (∀ r : Request, r.toJson.nesting ≤ Json.Reader.maxDepth → r.toJson.FloatsReadBack →
      (Json.read? r.toJson.compact).bind ofJson? = some r)
    ∧ ∀ s : Snapshot, s.toJson.nesting ≤ Json.Reader.maxDepth → s.toJson.FloatsReadBack →
      (Reading.ofText? s.toJson.compact).bind Snapshot.ofReading? = some s := by
  refine ⟨Json.read?_compact_iff, fun r shallow floats => ?_, fun s shallow floats => ?_⟩
  · rw [(Json.read?_compact_iff _).mpr ⟨shallow, floats⟩]
    exact readsBack r
  · rw [Json.ofText?_compact, Json.reread_eq_value shallow floats]
    exact Snapshot.readsBack s

/-- Resources where a field has a value, or a field has none, with two related layers that are not
in the order of their names. -/
def asking (value : Json) : Request where
  resourceType := "a"
  layer := { Layer.empty with
    filter? := some (.or [.any ["x"] [value], .not (.comparison .equals (.field ["x"]) .null)])
    sort? := some []
    selection? := some ⟨[], [("z", Layer.empty), ("y", Layer.empty)]⟩ }

/-- A resource that is related to no other. -/
def unrelated (value : Json) : Snapshot where
  id? := some (.string "1")
  attributes := Dict.ofList [("x", value)]
  toOne := Dict.ofList [("y", none)]
  toMany := Dict.ofList [("z", IdSet.empty)]

/-- Two and a half. -/
def half : Json.Number :=
  .float (Binary64.ofRatio 5 2) (by decide +kernel)

theorem written_read_back_half :
    (Json.read? (asking (.number half)).toJson.compact).bind ofJson? = some (asking (.number half))
    ∧ (Reading.ofText? (unrelated (.number half)).toJson.compact).bind Snapshot.ofReading?
      = some (unrelated (.number half)) := by
  obtain ⟨-, request, snapshot⟩ := written_read_back
  have back : Json.read? half.text = some (.number half) := by
    rw [Json.Number.read?_text]
    decide +kernel
  have only {n : Json.Number} {others : List Json.Number} (all : ∀ m ∈ others, m = half)
      (mem : n ∈ others) : Json.read? n.text = some (.number n) := by
    rw [all n mem]
    exact back
  refine ⟨request _ (by decide +kernel) ?_, snapshot _ (by decide +kernel) ?_⟩
  · intro x finite mem
    exact only (by decide +kernel) mem
  · intro x finite mem
    exact only (by decide +kernel) mem

/-- The double-precision number nearest to one eleventh. -/
def eleventh : Json.Number :=
  .float (Binary64.ofRatio 1 11) (by decide +kernel)

/-- The next larger number. -/
def aboveEleventh : Json.Number :=
  .float ⟨false, (Binary64.ofRatio 1 11).index + 1⟩ (by decide +kernel)

/-- A filter inside a number of negations. -/
def negated : Nat → Filter
  | 0 => .and []
  | n + 1 => .not (negated n)

/-- **Requests that are not read back**: one eleventh is read as the next larger number, and a
filter inside too many negations is not read at all. -/
theorem eleventh_not_read_back :
    (Json.read? (asking (.number eleventh)).toJson.compact).bind ofJson?
        ≠ some (asking (.number eleventh))
    ∧ (Json.read? (toJson ⟨"a", { Layer.empty with filter? := some (negated 125) }⟩).compact).bind
        ofJson? = none := by
  constructor
  · have read : ((asking (.number eleventh)).toJson.reread 0).value?
        = some (asking (.number aboveEleventh)).toJson := by decide +kernel
    rw [Json.read?_compact, read]
    show ofJson? (asking (.number aboveEleventh)).toJson ≠ _
    rw [readsBack]
    intro same
    have number : Json.number aboveEleventh = Json.number eleventh := by
      simpa [asking] using same
    exact absurd number (by decide +kernel)
  · have unread : ((toJson ⟨"a", { Layer.empty with filter? := some (negated 125) }⟩).reread
        0).value? = none := by decide +kernel
    rw [Json.read?_compact, unread]
    rfl

end Request

end ResourceQuery
