import ResourceQuery.Proofs.Change.Detection

/-!
# Asking for a change again

A snapshot that asks for nothing new has no effect, whichever fields it mentions, and one that asks
for the change of one relationship has no other effect.  So once a change is applied, asking for it
again leads to no statement.

## Main Definitions

- `Snapshot.overlay`: what is known of a resource after a change.

## Main Statements

- `ChangeSet.changedColumns_eq_nil`: no column changes unless a field does.
- `ChangeSet.relationshipChanges_eq_nil`, `ChangeSet.relationshipChanges_eq_singleton`: no
  relationship changes, or only one does.
- `ChangeSet.detect_again`: a change that was applied is not detected again.
-/

namespace ResourceQuery

@[simp] theorem Json.alike_refl (j : Json) : j.alike j = true := by
  simp [Json.alike]

/-! ### Snapshots that ask for nothing new -/

namespace Snapshot

/-- **What is known of a resource after a change**: what a snapshot mentions is written over what
was known before, and the resource has an identifier. -/
def overlay (before? : Option Snapshot) (after : Snapshot) (id : ResourceId) : Snapshot where
  id? := some id
  attributes := (before?.getD empty).attributes.overlay after.attributes
  toOne := (before?.getD empty).toOne.overlay after.toOne
  toMany := (before?.getD empty).toMany.overlay after.toMany

variable {before? : Option Snapshot} {after : Snapshot} {id : ResourceId} {name : String}

theorem not_changesAttribute_overlay (new : Json) :
    ¬ after.ChangesAttribute (some (overlay before? after id)) name new := by
  rintro ⟨set, differs⟩
  have known : (overlay before? after id).attributes.get? name = some new := by
    simp [overlay, Dict.get?_overlay, set]
  simpa using differs new (by simpa using known)

theorem not_changesToOne_overlay (old new : Option ResourceId) :
    ¬ after.ChangesToOne (some (overlay before? after id)) name old new := by
  rintro ⟨set, found, different⟩
  have known : (overlay before? after id).toOne.get? name = some new := by
    simp [overlay, Dict.get?_overlay, set]
  rw [Option.bind_some, known] at found
  exact different found.symm

theorem not_changesToMany_overlay (old new : IdSet) :
    ¬ after.ChangesToMany (some (overlay before? after id)) name old new := by
  rintro ⟨set, found, different⟩
  have known : (overlay before? after id).toMany.get? name = some new := by
    simp [overlay, Dict.get?_overlay, set]
  rw [Option.bind_some, known] at found
  exact different found.symm

end Snapshot

namespace ChangeSet

variable {schema : Schema} {resourceType : String} {info : ResourceType}
variable {before? : Option Snapshot} {after : Snapshot} {name : String}

/-! ### Fields that do not change -/

theorem changedAttribute?_eq_none (same : ∀ new, ¬ after.ChangesAttribute before? name new) :
    changedAttribute? before? after name = none :=
  Option.eq_none_iff_forall_ne_some.mpr fun new changed =>
    same new (changedAttribute?_eq_some.mp changed)

theorem changedToOne?_eq_none (same : ∀ old new, ¬ after.ChangesToOne before? name old new) :
    changedToOne? before? after name = none :=
  Option.eq_none_iff_forall_ne_some.mpr fun change changed =>
    same change.1 change.2 (changedToOne?_eq_some.mp changed)

theorem toManyChange?_eq_none (same : ∀ old new, ¬ after.ChangesToMany before? name old new) :
    toManyChange? before? after name = none := by
  unfold toManyChange?
  cases set : after.toMany.get? name with
  | none => rfl
  | some new =>
    by_cases equal : (before?.bind (fun before => before.toMany.get? name)).getD IdSet.empty = new
    · simp [equal]
    · exact absurd ⟨set, rfl, equal⟩ (same _ new)

/-- **No column changes unless a field does.**  The identifier is only written when the resource is
new. -/
theorem changedColumns_eq_nil {before : Snapshot}
    (attributes : ∀ name new, ¬ after.ChangesAttribute (some before) name new)
    (toOne : ∀ name old new, ¬ after.ChangesToOne (some before) name old new)
    (fields : List (String × Option ResourceField)) :
    changedColumns schema resourceType info (some before) after fields = .ok [] := by
  induction fields with
  | nil => rfl
  | cons head rest ih =>
    obtain ⟨column, field?⟩ := head
    have unchanged : columnValue? schema resourceType info (some before) after column field?
        = .ok none := by
      match field? with
      | some .id => rfl
      | some (.ofAttribute name) =>
        rw [columnValue?, changedAttribute?_eq_none (attributes name)]
      | some (.ofRelationship owner name) =>
        rw [columnValue?, changedToOne?_eq_none (toOne name)]
        split <;> rfl
      | none => rfl
    rw [changedColumns, unchanged, ih]
    rfl

/-! ### Relationships that do not change -/

theorem relationshipChange?_eq_none (relationship : Relationship)
    (toOne : ∀ old new, ¬ after.ChangesToOne before? name old new)
    (toMany : ∀ old new, ¬ after.ChangesToMany before? name old new) :
    relationshipChange? schema resourceType before? after name relationship = .ok none := by
  rw [relationshipChange?, toManyChange?_eq_none toMany, changedToOne?_eq_none toOne]
  split <;> rfl

theorem relationshipChanges_eq_nil {relationships : List (String × Relationship)}
    (same : ∀ r ∈ relationships,
      relationshipChange? schema resourceType before? after r.1 r.2 = .ok none) :
    relationshipChanges schema resourceType before? after relationships = .ok [] := by
  induction relationships with
  | nil => rfl
  | cons head rest ih =>
    rw [List.forall_mem_cons] at same
    rw [relationshipChanges, same.1, ih same.2]
    rfl

/-- **If one relationship changes**, its change is the only one. -/
theorem relationshipChanges_eq_singleton {relationships : List (String × Relationship)}
    {relationship : Relationship} {change : RelationshipChange}
    (distinct : (relationships.map Prod.fst).Nodup) (mem : (name, relationship) ∈ relationships)
    (changed : relationshipChange? schema resourceType before? after name relationship
      = .ok (some change))
    (same : ∀ r ∈ relationships, r.1 ≠ name →
      relationshipChange? schema resourceType before? after r.1 r.2 = .ok none) :
    relationshipChanges schema resourceType before? after relationships = .ok [change] := by
  induction relationships with
  | nil => cases mem
  | cons head rest ih =>
    rw [List.map_cons, List.nodup_cons] at distinct
    rw [List.forall_mem_cons] at same
    rcases List.mem_cons.mp mem with rfl | mem
    · have others : ∀ r ∈ rest, r.1 ≠ name := fun r listed equal =>
        distinct.1 (List.mem_map.mpr ⟨r, listed, equal⟩)
      rw [relationshipChanges, changed,
        relationshipChanges_eq_nil fun r listed => same.2 r listed (others r listed)]
      rfl
    · have different : head.1 ≠ name := fun equal =>
        distinct.1 (List.mem_map.mpr ⟨_, mem, equal.symm⟩)
      rw [relationshipChanges, same.1 different, ih distinct.2 mem same.2]
      rfl

/-! ### Changes that were applied -/

/-- A change set without changes needs no statements. -/
theorem planUpdate_ofParts_nil {id : ResourceId}
    (known : schema.resourceType resourceType = .ok info) :
    (ofParts resourceType (some id) [] []).planUpdate schema = .ok [] := by
  unfold planUpdate planRelease
  simp only [ofParts, checkRequired, known, CompileError.ofLookup, bind, Except.bind]
  rfl

/-- **A change that was applied is not detected again.**  If a snapshot can be compared with what
was known before, it can be compared with what is known after it was applied; no column and no
relationship changes then, no required relationship is cleared, and no statement is planned. -/
theorem detect_again {changes : ChangeSet}
    (detected : detect schema resourceType before? after = .ok changes) (id : ResourceId) :
    ∃ again, detect schema resourceType (some (Snapshot.overlay before? after id)) after = .ok again
      ∧ again.columns = [] ∧ again.oneToOne = [] ∧ again.toOneAtRight = [] ∧ again.toMany = []
      ∧ again.checkRequired = .ok () ∧ again.planUpdate schema = .ok [] := by
  obtain ⟨info, fields, _, _, known, checked, mapped, -, -, rfl⟩ := detect_eq_ok_iff.mp detected
  have columns : changedColumns schema resourceType info
      (some (Snapshot.overlay before? after id)) after fields = .ok [] :=
    changedColumns_eq_nil (fun _ => Snapshot.not_changesAttribute_overlay)
      (fun _ => Snapshot.not_changesToOne_overlay) fields
  have relationships : relationshipChanges schema resourceType
      (some (Snapshot.overlay before? after id)) after info.relationships.entries = .ok [] :=
    relationshipChanges_eq_nil fun r _ => relationshipChange?_eq_none r.2
      Snapshot.not_changesToOne_overlay Snapshot.not_changesToMany_overlay
  obtain ⟨given, identified⟩ : ∃ given, (after.id? <|> some id) = some given := by
    cases after.id? with
    | none => exact ⟨id, rfl⟩
    | some own => exact ⟨own, rfl⟩
  refine ⟨ofParts resourceType (some given) [] [], detect_eq_ok_iff.mpr ⟨info, fields, [], [],
    known, checked, mapped, columns, relationships, ?_⟩, rfl, rfl, rfl, rfl, rfl,
    planUpdate_ofParts_nil known⟩
  rw [← identified]
  rfl

/-- The tag that was renamed, colored and taken from its item. -/
theorem detect_again_tag :
    ∃ changes again, detect Schema.todo "tags" (some tagBefore) tagAfter = .ok changes
      ∧ changes.columns = [("Name", .string "late"), ("TodoItemId", .null)]
      ∧ changes.toOneAtRight = [⟨"color", none, some (.int 3)⟩]
      ∧ detect Schema.todo "tags" (some (Snapshot.overlay (some tagBefore) tagAfter (.int 7)))
        tagAfter = .ok again
      ∧ again.columns = [] ∧ again.toOneAtRight = [] ∧ again.planUpdate Schema.todo = .ok [] := by
  have detected : detect Schema.todo "tags" (some tagBefore) tagAfter
      = .ok (ofParts "tags" (some (.int 7)) [("Name", .string "late"), ("TodoItemId", .null)]
        [.atRight ⟨"color", none, some (.int 3)⟩, .own none none]) := by decide +kernel
  obtain ⟨again, repeated, columns, -, atRight, -, -, planned⟩ := detect_again detected (.int 7)
  exact ⟨_, again, detected, rfl, rfl, repeated, columns, atRight, planned⟩

end ChangeSet

end ResourceQuery
