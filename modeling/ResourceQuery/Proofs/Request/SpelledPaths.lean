import ResourceQuery.Proofs.Request.LayerTree

/-!
# The paths that a layer spells

Relationships are asked for by nested selections and by trees of inclusions, and both may spell the
same path, at any depth and more than once.  Merging moves inclusions into the layers below, where
they are merged again.  This file says what comes out in terms of the layer as it was given: the
paths that are spelled, each once, in the order in which they first occur.

## Main Definitions

- `Layer.spelled`: the paths that selections and inclusions spell, with repetitions.
- `Path.stepFrom?`: the relationship by which a path goes one step further than another.
- `Layer.selectedAt?`: the layer that nested selections give for a path.
- `Layer.Extends`: a layer is another one apart from its inclusions.

## Main Statements

- `Layer.filterMap_after?_mergeInclusion`: merging an inclusion adds its paths behind each
  relationship.
- `Layer.Distinct.filterMap_stepFrom?_cons`: steps behind a relationship are steps of the layer
  followed there.
- `Fetch.ofLayer_visits_spelled`: what is visited from a layer, and in which order.

## Design Notes

Two lists of paths count as the same if the same paths first occur in the same order, that is, if
they are equal without repetitions.  The paths of merged layers stand in another order than the
paths that were spelled, because an included path moves to the place of its relationship.  But
behind each relationship the two lists are the same in this sense, and that is what is merged again
below.
-/

namespace ResourceQuery

/-! ### First occurrences -/

section FirstOccurrences

variable {α β : Type} [BEq α] [LawfulBEq α] [BEq β] [LawfulBEq β]

omit [BEq β] [LawfulBEq β] in
/-- What is left out of a list anyway need not be there. -/
theorem filterMap_filter_ne (f : α → Option β) {a : α} (out : f a = none) (as : List α) :
    (as.filter (fun b => !b == a)).filterMap f = as.filterMap f := by
  induction as with
  | nil => rfl
  | cons b as ih =>
    by_cases same : b = a
    · simp [same, out, ih]
    · simp [same, List.filterMap_cons, ih]

/-- Parts taken from a list first occur in the order in which what they are taken from does. -/
theorem eraseDups_filterMap (f : α → Option β) (as : List α) :
    (as.eraseDups.filterMap f).eraseDups = (as.filterMap f).eraseDups := by
  match as with
  | [] => rfl
  | a :: rest =>
    rw [List.eraseDups_cons]
    cases taken : f a with
    | none =>
      rw [List.filterMap_cons_none taken, List.filterMap_cons_none taken, eraseDups_filterMap f,
        filterMap_filter_ne f taken]
    | some b =>
      rw [List.filterMap_cons_some taken, List.filterMap_cons_some taken, List.eraseDups_cons,
        List.eraseDups_cons, List.filter_filterMap, List.filter_filterMap, eraseDups_filterMap,
        filterMap_filter_ne _ (by simp [taken])]
termination_by as.length
decreasing_by all_goals exact Nat.lt_succ_of_le (List.length_filter_le _ _)

theorem eraseDups_filterMap_congr {as bs : List α} (same : as.eraseDups = bs.eraseDups)
    (f : α → Option β) : (as.filterMap f).eraseDups = (bs.filterMap f).eraseDups := by
  rw [← eraseDups_filterMap, same, eraseDups_filterMap]

theorem mem_iff_of_eraseDups {as bs : List α} (same : as.eraseDups = bs.eraseDups) (a : α) :
    a ∈ as ↔ a ∈ bs := by
  rw [← List.mem_eraseDups, same, List.mem_eraseDups]

theorem eraseDups_append_congr {as as' bs bs' : List α} (first : as.eraseDups = as'.eraseDups)
    (second : bs.eraseDups = bs'.eraseDups) :
    (as ++ bs).eraseDups = (as' ++ bs').eraseDups := by
  have left : ∀ xs, List.removeAll xs as = List.removeAll xs as' := by
    intro xs
    simp only [List.removeAll]
    refine List.filter_congr fun x _ => ?_
    simp only [List.elem_eq_contains, List.contains_eq_mem, mem_iff_of_eraseDups first]
  have right : (List.removeAll bs as').eraseDups = (List.removeAll bs' as').eraseDups := by
    simp only [List.removeAll, ← List.filterMap_eq_filter]
    exact eraseDups_filterMap_congr second _
  rw [List.eraseDups_append, List.eraseDups_append, first, left, right]

theorem eraseDups_append_of_subset {as bs : List α} (sub : bs ⊆ as) :
    (as ++ bs).eraseDups = as.eraseDups := by
  have none : List.removeAll bs as = [] := by
    simp only [List.removeAll, List.filter_eq_nil_iff]
    intro b mem
    simpa using sub mem
  rw [List.eraseDups_append, none, List.eraseDups_nil, List.append_nil]

theorem eraseDups_of_nodup {as : List α} (distinct : as.Nodup) : as.eraseDups = as := by
  induction as with
  | nil => rfl
  | cons a as ih =>
    obtain ⟨new, distinct⟩ := List.nodup_cons.mp distinct
    have others : as.filter (fun b => !b == a) = as := by
      refine List.filter_eq_self.mpr fun b mem => ?_
      have ne : b ≠ a := fun same => new (same ▸ mem)
      simpa using ne
    rw [List.eraseDups_cons, others, ih distinct]

/-- An element that has occurred before does not matter. -/
theorem eraseDups_append_cons {a : α} {as : List α} (mem : a ∈ as) (bs : List α) :
    (as ++ a :: bs).eraseDups = (as ++ bs).eraseDups := by
  rw [List.append_cons]
  exact eraseDups_append_congr (eraseDups_append_of_subset (by simpa using mem)) rfl

end FirstOccurrences

/-! ### Paths -/

namespace Path

/-- What remains of a path that starts with a relationship. -/
def after? (name : String) : Path → Option Path
  | [] => none
  | head :: rest => if head = name then some rest else none

theorem after?_eq_some_iff {name : String} {path rest : Path} :
    after? name path = some rest ↔ path = name :: rest := by
  cases path with
  | nil => simp [after?]
  | cons head path => simp [after?]

/-- **The relationship by which another path goes one step further** than a path. -/
def stepFrom? : Path → Path → Option String
  | [], [name] => some name
  | name :: path, other => (after? name other).bind (stepFrom? path)
  | _, _ => none

theorem stepFrom?_nil (path : Path) : stepFrom? path [] = none := by
  cases path <;> rfl

/-- Steps from behind a relationship are steps of what remains behind it. -/
theorem filterMap_stepFrom?_cons (name : String) (path : Path) (paths : List Path) :
    paths.filterMap (stepFrom? (name :: path))
      = (paths.filterMap (after? name)).filterMap (stepFrom? path) := by
  rw [List.filterMap_filterMap]
  rfl

theorem filterMap_after?_map_cons (name head : String) (paths : List Path) :
    (paths.map (head :: ·)).filterMap (after? name) = if head = name then paths else [] := by
  rw [List.filterMap_map]
  by_cases same : head = name <;> simp [Function.comp_def, after?, same]

/-- Of a relationship and the paths behind it only the relationship is one step. -/
theorem filterMap_stepFrom?_map_cons (name : String) {paths : List Path} (longer : [] ∉ paths) :
    (([] :: paths).map (name :: ·)).filterMap (stepFrom? []) = [name] := by
  have none : (paths.map (name :: ·)).filterMap (stepFrom? []) = [] := by
    rw [List.filterMap_map, List.filterMap_eq_nil_iff]
    intro path mem
    cases path with
    | nil => exact absurd mem longer
    | cons head path => rfl
  have first : stepFrom? [] [name] = some name := rfl
  rw [List.map_cons, List.filterMap_cons_some first, none]

end Path

/-! ### Spelled paths -/

namespace Inclusion

mutual

/-- The paths that an inclusion spells, in the order in which they occur. -/
def spelled : Inclusion → List Path
  | mk name children => ([] :: allSpelled children).map (name :: ·)

/-- The paths that several inclusions spell. -/
def allSpelled : List Inclusion → List Path
  | [] => []
  | inclusion :: rest => spelled inclusion ++ allSpelled rest

end

theorem spelled_eq (inclusion : Inclusion) :
    inclusion.spelled
      = ([] :: allSpelled inclusion.children).map (inclusion.relationship :: ·) := by
  cases inclusion
  simp only [spelled, children, relationship]

theorem allSpelled_append (as bs : List Inclusion) :
    allSpelled (as ++ bs) = allSpelled as ++ allSpelled bs := by
  induction as with
  | nil => simp [allSpelled]
  | cons a as ih => simp [allSpelled, ih]

theorem spelled_subset {inclusion : Inclusion} {inclusions : List Inclusion}
    (mem : inclusion ∈ inclusions) : spelled inclusion ⊆ allSpelled inclusions := by
  induction inclusions with
  | nil => cases mem
  | cons first rest ih =>
    rw [allSpelled]
    rcases List.mem_cons.mp mem with rfl | mem
    · exact List.subset_append_left _ _
    · exact List.subset_append_of_subset_right _ (ih mem)

theorem nil_not_mem_allSpelled (inclusions : List Inclusion) : [] ∉ allSpelled inclusions := by
  induction inclusions with
  | nil => simp [allSpelled]
  | cons inclusion rest ih => simp [allSpelled, spelled_eq, ih]

theorem filterMap_stepFrom?_nil (inclusions : List Inclusion) :
    (allSpelled inclusions).filterMap (Path.stepFrom? []) = inclusions.map relationship := by
  induction inclusions with
  | nil => simp [allSpelled]
  | cons inclusion rest ih =>
    rw [allSpelled, List.filterMap_append, spelled_eq,
      Path.filterMap_stepFrom?_map_cons _ (nil_not_mem_allSpelled _), ih]
    rfl

/-- **Merging inclusions keeps the paths that they spell**, in the order of first occurrence. -/
theorem allSpelled_merge (inclusions more : List Inclusion) :
    (allSpelled (merge inclusions more)).eraseDups
      = (allSpelled inclusions ++ allSpelled more).eraseDups := by
  induction more generalizing inclusions with
  | nil => simp [merge, allSpelled]
  | cons c more ih =>
    rw [merge, List.foldl_cons, ← merge, ih, allSpelled, ← List.append_assoc]
    refine eraseDups_append_congr ?_ rfl
    split
    · rename_i known
      exact (eraseDups_append_of_subset (spelled_subset known)).symm
    · rw [allSpelled_append, allSpelled, allSpelled, List.append_nil]

end Inclusion

namespace Layer

mutual

/-- **The paths that a layer spells**, in the order in which they occur: those of its selection,
each with what the selected layer spells, then those of its inclusions. -/
def spelled : Layer → List Path
  | ⟨_, _, _, selection?, inclusions⟩ =>
    selectionSpelled selection? ++ Inclusion.allSpelled inclusions

/-- The paths that a selection spells. -/
def selectionSpelled : Option Selection → List Path
  | none => []
  | some ⟨_, relationships⟩ => allSpelled relationships

/-- The paths that several selected relationships spell. -/
def allSpelled : List (String × Layer) → List Path
  | [] => []
  | (name, layer) :: rest => ([] :: spelled layer).map (name :: ·) ++ allSpelled rest

end

theorem spelled_eq (layer : Layer) :
    layer.spelled = allSpelled layer.selected ++ Inclusion.allSpelled layer.inclusions := by
  obtain ⟨_, _, _, selection?, inclusions⟩ := layer
  cases selection? with
  | none => simp [spelled, selectionSpelled, selected, allSpelled]
  | some selection =>
    obtain ⟨attributes, relationships⟩ := selection
    simp [spelled, selectionSpelled, selected]

theorem spelled_empty : Layer.empty.spelled = [] := by
  simp only [Layer.empty, spelled, selectionSpelled, Inclusion.allSpelled, List.append_nil]

theorem nil_not_mem_allSpelled (layers : List (String × Layer)) : [] ∉ allSpelled layers := by
  induction layers with
  | nil => simp [allSpelled]
  | cons entry rest ih => simp [allSpelled, ih]

theorem nil_not_mem_spelled (layer : Layer) : [] ∉ layer.spelled := by
  rw [spelled_eq, List.mem_append, not_or]
  exact ⟨nil_not_mem_allSpelled _, Inclusion.nil_not_mem_allSpelled _⟩

/-- Further inclusions spell further paths. -/
theorem spelled_addInclusions (layer : Layer) (more : List Inclusion) :
    (layer.addInclusions more).spelled.eraseDups
      = (layer.spelled ++ Inclusion.allSpelled more).eraseDups := by
  have selected : (layer.addInclusions more).selected = layer.selected := rfl
  rw [spelled_eq, spelled_eq, selected, List.append_assoc]
  exact eraseDups_append_congr rfl (Inclusion.allSpelled_merge _ _)

/-- What remains behind a relationship of the paths that layers spell. -/
theorem filterMap_after?_cons (name key : String) (layer : Layer) (rest : List (String × Layer)) :
    (allSpelled ((key, layer) :: rest)).filterMap (Path.after? name)
      = (if key = name then [] :: layer.spelled else [])
        ++ (allSpelled rest).filterMap (Path.after? name) := by
  rw [allSpelled, List.filterMap_append, Path.filterMap_after?_map_cons]

theorem filterMap_after?_of_not_mem {name : String} {layers : List (String × Layer)}
    (absent : name ∉ layers.map Prod.fst) :
    (allSpelled layers).filterMap (Path.after? name) = [] := by
  induction layers with
  | nil => simp [allSpelled]
  | cons entry rest ih =>
    obtain ⟨key, layer⟩ := entry
    rw [List.map_cons, List.mem_cons, not_or] at absent
    rw [filterMap_after?_cons, if_neg (Ne.symm absent.1), List.nil_append, ih absent.2]

theorem mem_filterMap_after?_iff {name : String} {path : Path} {layers : List (String × Layer)} :
    path ∈ (allSpelled layers).filterMap (Path.after? name)
      ↔ ∃ layer, (name, layer) ∈ layers ∧ (path = [] ∨ path ∈ layer.spelled) := by
  induction layers with
  | nil => simp [allSpelled]
  | cons entry rest ih =>
    obtain ⟨key, layer⟩ := entry
    rw [filterMap_after?_cons, List.mem_append, ih]
    by_cases same : key = name
    · simp [same, or_and_right, exists_or]
    · simp [same, Ne.symm same]

theorem filterMap_after?_of_mem {name : String} {layer : Layer} {layers : List (String × Layer)}
    (names : (layers.map Prod.fst).Nodup) (mem : (name, layer) ∈ layers) :
    (allSpelled layers).filterMap (Path.after? name) = [] :: layer.spelled := by
  induction layers with
  | nil => cases mem
  | cons entry rest ih =>
    obtain ⟨key, other⟩ := entry
    rw [List.map_cons, List.nodup_cons] at names
    rw [filterMap_after?_cons]
    rcases List.mem_cons.mp mem with same | mem
    · cases same
      rw [if_pos rfl, filterMap_after?_of_not_mem names.1, List.append_nil]
    · have ne : key ≠ name := by
        rintro rfl
        exact names.1 (List.mem_map.mpr ⟨_, mem, rfl⟩)
      rw [if_neg ne, List.nil_append, ih names.2 mem]

/-- **Merging an inclusion adds its paths**: behind each relationship the same paths first occur in
the same order, whichever layer they were merged into. -/
theorem filterMap_after?_mergeInclusion (name : String) (inclusion : Inclusion)
    {layers : List (String × Layer)} (names : (layers.map Prod.fst).Nodup) :
    ((allSpelled (mergeInclusion inclusion layers)).filterMap (Path.after? name)).eraseDups
      = ((allSpelled layers ++ inclusion.spelled).filterMap (Path.after? name)).eraseDups := by
  have own : inclusion.spelled.filterMap (Path.after? name)
      = if inclusion.relationship = name then [] :: Inclusion.allSpelled inclusion.children
        else [] := by
    rw [Inclusion.spelled_eq, Path.filterMap_after?_map_cons]
  have below : ∀ layer : Layer,
      ([[]] ++ (layer.addInclusions inclusion.children).spelled).eraseDups
        = ([[]] ++ (layer.spelled ++ Inclusion.allSpelled inclusion.children)).eraseDups :=
    fun layer => eraseDups_append_congr rfl (layer.spelled_addInclusions inclusion.children)
  induction layers with
  | nil =>
    rw [List.filterMap_append, own, mergeInclusion, filterMap_after?_cons, allSpelled,
      List.filterMap_nil, List.append_nil, List.nil_append]
    by_cases same : inclusion.relationship = name
    · rw [if_pos same, if_pos same]
      have first := below Layer.empty
      rw [spelled_empty] at first
      exact first
    · rw [if_neg same, if_neg same]
  | cons entry rest ih =>
    obtain ⟨key, layer⟩ := entry
    rw [List.map_cons, List.nodup_cons] at names
    rw [mergeInclusion, List.filterMap_append, filterMap_after?_cons]
    -- The paths of the inclusion move to the front of what the rest spells.  That makes no
    -- difference, since nothing in the rest lies behind the relationship they are merged into.
    by_cases merged : key = inclusion.relationship
    · rw [if_pos merged, filterMap_after?_cons, own, ← merged]
      by_cases same : key = name
      · subst same
        rw [if_pos rfl, if_pos rfl, if_pos rfl, filterMap_after?_of_not_mem names.1,
          List.append_nil, List.append_nil, eraseDups_append_cons List.mem_cons_self]
        exact below layer
      · rw [if_neg same, if_neg same, if_neg same, List.append_nil]
    · rw [if_neg merged, filterMap_after?_cons, List.append_assoc]
      refine eraseDups_append_congr rfl ?_
      rw [ih names.2, List.filterMap_append]

/-- Inclusions are merged one after the other. -/
theorem filterMap_after?_foldl (name : String) (inclusions : List Inclusion)
    {layers : List (String × Layer)} (names : (layers.map Prod.fst).Nodup) :
    ((allSpelled (inclusions.foldl (fun layers i => mergeInclusion i layers) layers)).filterMap
        (Path.after? name)).eraseDups
      = ((allSpelled layers ++ Inclusion.allSpelled inclusions).filterMap
        (Path.after? name)).eraseDups := by
  induction inclusions generalizing layers with
  | nil => rw [List.foldl_nil, Inclusion.allSpelled, List.append_nil]
  | cons inclusion rest ih =>
    have names' := nodup_names_mergeInclusion inclusion names
    rw [List.foldl_cons, ih names', Inclusion.allSpelled, ← List.append_assoc,
      List.filterMap_append, List.filterMap_append]
    exact eraseDups_append_congr (filterMap_after?_mergeInclusion name inclusion names) rfl

theorem names_foldl (inclusions : List Inclusion) {layers : List (String × Layer)}
    (names : (layers.map Prod.fst).Nodup) :
    (inclusions.foldl (fun layers i => mergeInclusion i layers) layers).map Prod.fst
      = (layers.map Prod.fst ++ inclusions.map Inclusion.relationship).eraseDups := by
  induction inclusions generalizing layers with
  | nil => rw [List.foldl_nil, List.map_nil, List.append_nil, eraseDups_of_nodup names]
  | cons inclusion rest ih =>
    have names' := nodup_names_mergeInclusion inclusion names
    rw [List.foldl_cons, ih names', names_mergeInclusion, List.map_cons]
    split
    · rename_i known
      rw [eraseDups_append_cons known]
    · rw [← List.append_cons]

/-! ### Paths behind a relationship -/

variable {layer : Layer}

/-- Merging inclusions keeps the paths behind each relationship. -/
theorem Distinct.filterMap_after?_spelled (distinct : layer.Distinct) (name : String) :
    (layer.spelled.filterMap (Path.after? name)).eraseDups
      = ((allSpelled layer.relationships).filterMap (Path.after? name)).eraseDups := by
  rw [spelled_eq]
  exact (filterMap_after?_foldl name layer.inclusions distinct.selected.1).symm

/-- **A layer spells the paths to and behind what is followed from it.** -/
theorem Distinct.mem_spelled_cons_iff (distinct : layer.Distinct) {name : String} {path : Path} :
    name :: path ∈ layer.spelled
      ↔ ∃ sub, (name, sub) ∈ layer.relationships ∧ (path = [] ∨ path ∈ sub.spelled) := by
  have remains : name :: path ∈ layer.spelled
      ↔ path ∈ layer.spelled.filterMap (Path.after? name) := by
    simp [List.mem_filterMap, Path.after?_eq_some_iff]
  rw [remains, mem_iff_of_eraseDups (distinct.filterMap_after?_spelled name),
    mem_filterMap_after?_iff]

/-- **What is followed from a layer**: the selected relationships in their order, then those that
are only included, in the order in which they are first included. -/
theorem Distinct.names_relationships (distinct : layer.Distinct) :
    layer.relationships.map Prod.fst
      = (layer.selected.map Prod.fst ++ layer.inclusions.map Inclusion.relationship).eraseDups :=
  names_foldl layer.inclusions distinct.selected.1

theorem Distinct.selected_prefix (distinct : layer.Distinct) :
    layer.selected.map Prod.fst <+: layer.relationships.map Prod.fst := by
  rw [distinct.names_relationships, List.eraseDups_append, eraseDups_of_nodup distinct.selected.1]
  exact List.prefix_append _ _

theorem filterMap_stepFrom?_nil (layer : Layer) :
    layer.spelled.filterMap (Path.stepFrom? [])
      = layer.selected.map Prod.fst ++ layer.inclusions.map Inclusion.relationship := by
  have selected : ∀ layers : List (String × Layer),
      (allSpelled layers).filterMap (Path.stepFrom? []) = layers.map Prod.fst := by
    intro layers
    induction layers with
    | nil => simp [allSpelled]
    | cons entry rest ih =>
      rw [allSpelled, List.filterMap_append,
        Path.filterMap_stepFrom?_map_cons _ (nil_not_mem_spelled _), ih]
      rfl
  rw [spelled_eq, List.filterMap_append, selected, Inclusion.filterMap_stepFrom?_nil]

/-- **Steps from a place behind a relationship** are steps of the layer followed there. -/
theorem Distinct.filterMap_stepFrom?_cons (distinct : layer.Distinct) {name : String} {sub : Layer}
    (mem : (name, sub) ∈ layer.relationships) (path : Path) :
    (layer.spelled.filterMap (Path.stepFrom? (name :: path))).eraseDups
      = (sub.spelled.filterMap (Path.stepFrom? path)).eraseDups := by
  rw [Path.filterMap_stepFrom?_cons,
    eraseDups_filterMap_congr (distinct.filterMap_after?_spelled name),
    filterMap_after?_of_mem distinct.relationships.1 mem,
    List.filterMap_cons_none (Path.stepFrom?_nil path)]

/-! ### Layers as they are given -/

/-- **The layer that nested selections give for a path.** -/
def selectedAt? : Layer → Path → Option Layer
  | layer, [] => some layer
  | layer, name :: path => (layer.selected.lookup name).bind (fun sub => sub.selectedAt? path)

/-- **A layer extends another one** if at most its inclusions differ. -/
structure Extends (layer given : Layer) : Prop where
  filter : layer.filter? = given.filter?
  sort : layer.sort? = given.sort?
  pagination : layer.pagination? = given.pagination?
  selection : layer.selection? = given.selection?

namespace Extends

variable {given base : Layer}

theorem refl (layer : Layer) : layer.Extends layer :=
  ⟨rfl, rfl, rfl, rfl⟩

theorem trans (first : layer.Extends given) (second : given.Extends base) : layer.Extends base :=
  ⟨first.filter.trans second.filter, first.sort.trans second.sort,
    first.pagination.trans second.pagination, first.selection.trans second.selection⟩

theorem addInclusions (kept : layer.Extends given) (more : List Inclusion) :
    (layer.addInclusions more).Extends given :=
  ⟨kept.filter, kept.sort, kept.pagination, kept.selection⟩

theorem selected_eq (kept : layer.Extends given) : layer.selected = given.selected := by
  rw [selected, selected, kept.selection]

end Extends

/-- A layer into which an inclusion is merged stays what it was given as, and one that is added is
given as an empty one. -/
theorem extends_mergeInclusion (inclusion : Inclusion) {layers : List (String × Layer)}
    {given : String → Layer} (kept : ∀ r ∈ layers, r.2.Extends (given r.1))
    (new : inclusion.relationship ∉ layers.map Prod.fst →
      given inclusion.relationship = Layer.empty) :
    ∀ r ∈ mergeInclusion inclusion layers, r.2.Extends (given r.1) := by
  induction layers with
  | nil =>
    intro r mem
    obtain rfl := List.mem_singleton.mp mem
    rw [new List.not_mem_nil]
    exact (Extends.refl _).addInclusions _
  | cons entry rest ih =>
    obtain ⟨key, layer⟩ := entry
    have others : ∀ r ∈ rest, r.2.Extends (given r.1) :=
      fun r mem => kept r (List.mem_cons_of_mem _ mem)
    rw [mergeInclusion]
    split
    · intro r mem
      rcases List.mem_cons.mp mem with rfl | mem
      · exact (kept (key, layer) List.mem_cons_self).addInclusions _
      · exact others r mem
    · rename_i other
      intro r mem
      rcases List.mem_cons.mp mem with rfl | mem
      · exact kept (key, layer) List.mem_cons_self
      · refine ih others (fun absent => new ?_) r mem
        simpa [Ne.symm other] using absent

theorem extends_foldl (inclusions : List Inclusion) {layers : List (String × Layer)}
    {given : String → Layer} (kept : ∀ r ∈ layers, r.2.Extends (given r.1))
    (new : ∀ name, name ∉ layers.map Prod.fst → given name = Layer.empty) :
    ∀ r ∈ inclusions.foldl (fun layers i => mergeInclusion i layers) layers,
      r.2.Extends (given r.1) := by
  induction inclusions generalizing layers with
  | nil => exact kept
  | cons inclusion rest ih =>
    refine ih (extends_mergeInclusion inclusion kept (new _)) fun name absent => new name ?_
    intro known
    rw [names_mergeInclusion] at absent
    split at absent
    · exact absent known
    · exact absent (List.mem_append_left _ known)

theorem lookup_of_mem {layers : List (String × Layer)} (names : (layers.map Prod.fst).Nodup)
    {r : String × Layer} (mem : r ∈ layers) : layers.lookup r.1 = some r.2 := by
  obtain ⟨front, back, rfl⟩ := List.append_of_mem mem
  refine List.lookup_eq_some_iff.mpr ⟨front, back, rfl, fun other earlier => ?_⟩
  have ne : r.1 ≠ other.1 := by
    intro same
    rw [List.map_append, List.map_cons, List.nodup_append] at names
    exact names.2.2 other.1 (List.mem_map_of_mem earlier) r.1 List.mem_cons_self same.symm
  simpa using ne

/-- **What is followed from a layer is as it was selected**, or empty, apart from inclusions. -/
theorem Distinct.extends_selected (distinct : layer.Distinct) {name : String} {sub : Layer}
    (mem : (name, sub) ∈ layer.relationships) :
    sub.Extends ((layer.selected.lookup name).getD Layer.empty) := by
  let given := fun key => (layer.selected.lookup key).getD Layer.empty
  have kept : ∀ r ∈ layer.selected, r.2.Extends (given r.1) := by
    intro r selected
    have found := lookup_of_mem distinct.selected.1 selected
    simp only [given, found, Option.getD_some]
    exact .refl _
  have new : ∀ key, key ∉ layer.selected.map Prod.fst → given key = Layer.empty := by
    intro key absent
    have none : layer.selected.lookup key = none := by
      refine List.lookup_eq_none_iff.mpr fun r mem => ?_
      have ne : key ≠ r.1 := fun same => absent (same ▸ List.mem_map_of_mem mem)
      simpa using ne
    simp only [given, none, Option.getD_none]
  exact extends_foldl layer.inclusions kept new (name, sub) mem

/-- What is given behind a relationship, by the layer followed there. -/
theorem Distinct.extends_selectedAt (distinct : layer.Distinct) {name : String} {sub : Layer}
    (mem : (name, sub) ∈ layer.relationships) {path : Path} {reached : Layer}
    (kept : reached.Extends ((sub.selectedAt? path).getD Layer.empty)) :
    reached.Extends ((layer.selectedAt? (name :: path)).getD Layer.empty) := by
  have own := distinct.extends_selected mem
  rw [selectedAt?]
  cases path with
  | nil =>
    cases found : layer.selected.lookup name with
    | none =>
      rw [found] at own
      exact kept.trans own
    | some given =>
      rw [found] at own
      exact kept.trans own
  | cons next path =>
    rw [selectedAt?, own.selected_eq] at kept
    cases found : layer.selected.lookup name with
    | none =>
      rw [found] at kept
      exact kept
    | some given =>
      rw [found] at kept
      exact kept

end Layer

/-! ### Visited layers -/

namespace Fetch

mutual

/-- Paths from a place go on from the path to it. -/
theorem layersFrom_append (front path : Path) : (fetch : Fetch) →
    fetch.layersFrom (front ++ path)
      = (fetch.layersFrom path).map (fun reached => (front ++ reached.1, reached.2))
  | mk layer relationships => by
    simp only [layersFrom, List.map_cons, allLayersFrom_append front path relationships]

theorem allLayersFrom_append (front path : Path) : (relationships : List (String × Fetch)) →
    allLayersFrom (front ++ path) relationships
      = (allLayersFrom path relationships).map (fun reached => (front ++ reached.1, reached.2))
  | [] => by simp only [allLayersFrom, List.map_nil]
  | (name, fetch) :: rest => by
    simp only [allLayersFrom, List.map_append, List.append_assoc,
      layersFrom_append front (path ++ [name]) fetch, allLayersFrom_append front path rest]

end

/-- **Visiting a layer**: first the layer itself, then what is followed from it, one after the
other. -/
theorem layers_ofLayer (layer : Layer) :
    (ofLayer layer).layers
      = ([], layer) :: layer.relationships.flatMap (fun r =>
        (ofLayer r.2).layers.map (fun reached => (r.1 :: reached.1, reached.2))) := by
  have each : ∀ layers : List (String × Layer),
      allLayersFrom [] (layers.map (fun r => (r.1, ofLayer r.2)))
        = layers.flatMap (fun r =>
          (ofLayer r.2).layers.map (fun reached => (r.1 :: reached.1, reached.2))) := by
    intro layers
    induction layers with
    | nil => simp only [List.map_nil, allLayersFrom, List.flatMap_nil]
    | cons r rest ih =>
      have first : (ofLayer r.2).layersFrom [r.1]
          = (ofLayer r.2).layers.map (fun reached => (r.1 :: reached.1, reached.2)) :=
        layersFrom_append [r.1] [] (ofLayer r.2)
      rw [List.map_cons, allLayersFrom, List.nil_append, first, ih, List.flatMap_cons]
  rw [ofLayer_eq, Fetch.layers, layersFrom, each]

theorem mem_layers_ofLayer_iff {layer reached : Layer} {name : String} {path : Path} :
    (name :: path, reached) ∈ (ofLayer layer).layers
      ↔ ∃ sub, (name, sub) ∈ layer.relationships ∧ (path, reached) ∈ (ofLayer sub).layers := by
  rw [layers_ofLayer]
  simp

theorem mem_layers_ofLayer_nil_iff {layer reached : Layer} :
    ([], reached) ∈ (ofLayer layer).layers ↔ reached = layer := by
  rw [layers_ofLayer]
  simp

variable {layer : Layer}

/-- **The visited paths are those that the layer spells**, and the path to the layer itself. -/
theorem mem_paths_ofLayer_iff (distinct : layer.Distinct) {path : Path} :
    path ∈ (ofLayer layer).layers.map Prod.fst ↔ path = [] ∨ path ∈ layer.spelled := by
  induction path generalizing layer with
  | nil =>
    have own : ([], layer) ∈ (ofLayer layer).layers := mem_layers_ofLayer_nil_iff.mpr rfl
    exact iff_of_true (List.mem_map.mpr ⟨_, own, rfl⟩) (.inl rfl)
  | cons name path ih =>
    have further : name :: path ∈ (ofLayer layer).layers.map Prod.fst
        ↔ ∃ sub, (name, sub) ∈ layer.relationships
          ∧ path ∈ (ofLayer sub).layers.map Prod.fst := by
      simp only [List.mem_map, Prod.exists, exists_and_right, exists_eq_right,
        mem_layers_ofLayer_iff]
      exact ⟨fun ⟨reached, sub, mem, below⟩ => ⟨sub, mem, reached, below⟩,
        fun ⟨sub, mem, reached, below⟩ => ⟨reached, sub, mem, below⟩⟩
    rw [further, or_iff_right (List.cons_ne_nil name path), distinct.mem_spelled_cons_iff]
    exact exists_congr fun sub => and_congr_right fun mem =>
      ih (distinct.relationships.2.of_mem mem)

/-- **Visiting ends**: no more layers are visited than layers and inclusions are in the layer. -/
theorem length_layers_ofLayer_le (layer : Layer) :
    (ofLayer layer).layers.length ≤ layer.weight := by
  -- Layers below weigh less, though they are no parts of the layer.
  induction weight : layer.weight using Nat.strongRecOn generalizing layer with
  | ind n ih =>
    subst weight
    have each : ∀ layers : List (String × Layer),
        (∀ r ∈ layers, (ofLayer r.2).layers.length ≤ r.2.weight) →
        (layers.flatMap (fun r => (ofLayer r.2).layers.map
          (fun reached => (r.1 :: reached.1, reached.2)))).length ≤ Layer.weights layers := by
      intro layers bounded
      induction layers with
      | nil => simp [Layer.weights]
      | cons r rest rest_ih =>
        have first := bounded r List.mem_cons_self
        have others := rest_ih fun s mem => bounded s (List.mem_cons_of_mem _ mem)
        rw [List.flatMap_cons, List.length_append, List.length_map, Layer.weights]
        omega
    have below := each layer.relationships fun r mem =>
      ih _ (Layer.weight_of_mem_relationships mem) r.2 rfl
    have less := layer.weights_relationships_lt
    rw [layers_ofLayer, List.length_cons]
    omega

theorem reached_spec (distinct : layer.Distinct) {path : Path} {reached : Layer}
    (visited : (path, reached) ∈ (ofLayer layer).layers) :
    reached.Distinct
      ∧ reached.relationships.map Prod.fst
        = (layer.spelled.filterMap (Path.stepFrom? path)).eraseDups
      ∧ reached.Extends ((layer.selectedAt? path).getD Layer.empty) := by
  induction path generalizing layer with
  | nil =>
    obtain rfl := mem_layers_ofLayer_nil_iff.mp visited
    rw [Layer.filterMap_stepFrom?_nil]
    exact ⟨distinct, distinct.names_relationships, .refl _⟩
  | cons name path ih =>
    obtain ⟨sub, mem, visited⟩ := mem_layers_ofLayer_iff.mp visited
    obtain ⟨below, names, kept⟩ := ih (distinct.relationships.2.of_mem mem) visited
    rw [distinct.filterMap_stepFrom?_cons mem]
    exact ⟨below, names, distinct.extends_selectedAt mem kept⟩

/-- **Merging inclusions keeps exactly the paths that are asked for.**  Following relationships from
a layer, and from each layer that this leads to, ends after at most as many layers as the layer has
layers and inclusions; it visits each path that selections and inclusions spell, no other, and none
twice.  From every place it follows the selected relationships first, and all relationships in the
order in which their paths are first spelled.  A layer that is selected for a path is visited as it
is given, apart from its inclusions, and one that is only included is empty apart from them. -/
theorem ofLayer_visits_spelled (distinct : layer.Distinct) :
    Acc (fun sub layer : Layer => ∃ name, (name, sub) ∈ layer.relationships) layer
      ∧ (ofLayer layer).layers.length ≤ layer.weight
      ∧ ((ofLayer layer).layers.map Prod.fst).Nodup
      ∧ (∀ path, path ∈ (ofLayer layer).layers.map Prod.fst ↔ path = [] ∨ path ∈ layer.spelled)
      ∧ ∀ path reached, (path, reached) ∈ (ofLayer layer).layers →
        reached.selected.map Prod.fst <+: reached.relationships.map Prod.fst
          ∧ reached.relationships.map Prod.fst
            = (layer.spelled.filterMap (Path.stepFrom? path)).eraseDups
          ∧ reached.Extends ((layer.selectedAt? path).getD Layer.empty) := by
  have wellFounded : WellFounded
      (fun sub layer : Layer => ∃ name, (name, sub) ∈ layer.relationships) :=
    Subrelation.wf (fun ⟨_, mem⟩ => Layer.weight_of_mem_relationships mem)
      (measure Layer.weight).wf
  refine ⟨wellFounded.apply layer, length_layers_ofLayer_le layer,
    nodup_layersFrom _ (distinct_ofLayer distinct), fun path => mem_paths_ofLayer_iff distinct,
    fun path reached visited => ?_⟩
  obtain ⟨below, names, kept⟩ := reached_spec distinct visited
  exact ⟨below.selected_prefix, names, kept⟩

/-- Items with their owner, who is selected with an account and included with it and with items of
that owner, of which the tags are included by one of two inclusions. -/
def overlapping : Layer :=
  { Layer.empty with
    selection? := some ⟨[], [("owner",
      { Layer.empty with
        pagination? := some ⟨2, none⟩
        selection? := some ⟨["lastName"], [("account", Layer.empty)]⟩
        inclusions := [.mk "ownedTodoItems" []] })]⟩
    inclusions := [.mk "tags" [.mk "color" []],
      .mk "owner" [.mk "account" [], .mk "ownedTodoItems" [.mk "tags" []]], .mk "tags" []] }

/-- Each of seven places is visited once. -/
theorem ofLayer_visits_spelled_overlapping :
    overlapping.Distinct
      ∧ (ofLayer overlapping).layers.map Prod.fst
        = [[], ["owner"], ["owner", "account"], ["owner", "ownedTodoItems"],
          ["owner", "ownedTodoItems", "tags"], ["tags"], ["tags", "color"]]
      ∧ (∀ path, path ∈ (ofLayer overlapping).layers.map Prod.fst
        ↔ path = [] ∨ path ∈ overlapping.spelled)
      ∧ ∀ reached, (["owner"], reached) ∈ (ofLayer overlapping).layers →
        reached.relationships.map Prod.fst = ["account", "ownedTodoItems"]
          ∧ reached.pagination? = some ⟨2, none⟩ := by
  have distinct : overlapping.Distinct := by
    simp [overlapping, Layer.empty, Layer.Distinct, Layer.SelectionDistinct, Layer.AllDistinct]
  have visits := ofLayer_visits_spelled distinct
  refine ⟨distinct, by decide +kernel, visits.2.2.2.1, fun reached visited => ?_⟩
  obtain ⟨-, names, kept⟩ := visits.2.2.2.2 _ reached visited
  exact ⟨names.trans (by decide +kernel), kept.pagination⟩

end Fetch

end ResourceQuery
