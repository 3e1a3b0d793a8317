import ResourceQuery.Compile.Query

/-!
# What a compilation ensures

A compilation may fail because of the request, but never because of a defect of the compiler.  Both
halves of its contract are stated together here: what holds of a result, and that no failure is an
internal one.  The rules below take a computation apart along its steps.

## Main Definitions

- `Compile.Ensures`: a computation returns a result with a property, or fails for a reason that
  lies in the request.

## Main Statements

- `Ensures.bind`: the contract of two computations, one after the other.
- `ensures_tree_bind`: building a tree keeps the contract only if it succeeds.
- `Ensures.run`: the contract of a whole statement.
-/

namespace ResourceQuery.Compile

open Sql (TableAlias)

variable {α β : Type}

/-- **The contract of a computation** begun at some progress: it returns a result that, together
with the progress made, has a property, or it fails for a reason that is no defect of the
compiler. -/
def Ensures (action : Compile α) (p : Progress) (Q : α → Progress → Prop) : Prop :=
  match action p with
  | .ok (a, after) => Q a after
  | .error e => e.isInternal = false

namespace Ensures

variable {action : Compile α} {p : Progress} {Q : α → Progress → Prop}

theorem of_ok {a : α} {after : Progress} (contract : Ensures action p Q)
    (h : action p = .ok (a, after)) : Q a after := by
  rw [Ensures, h] at contract
  exact contract

theorem mono (contract : Ensures action p Q) {weaker : α → Progress → Prop}
    (h : ∀ a after, Q a after → weaker a after) : Ensures action p weaker := by
  unfold Ensures at contract ⊢
  split at contract
  · exact h _ _ contract
  · exact contract

/-- **Sequential composition.** -/
theorem bind {next : α → Compile β} {R : β → Progress → Prop}
    (first : Ensures action p Q)
    (rest : ∀ a after, Q a after → Ensures (next a) after R) :
    Ensures (action >>= next) p R := by
  unfold Ensures at first ⊢
  show match StateT.bind action next p with
    | .ok (a, after) => R a after
    | .error e => e.isInternal = false
  simp only [StateT.bind]
  cases h : action p with
  | error e =>
    rw [h] at first
    exact first
  | ok result =>
    obtain ⟨a, after⟩ := result
    rw [h] at first
    exact rest a after first

end Ensures

variable {p : Progress} {Q : α → Progress → Prop} {R : β → Progress → Prop}

theorem ensures_pure {a : α} (h : Q a p) : Ensures (pure a) p Q := h

theorem ensures_fail {e : CompileError} (h : e.isInternal = false) :
    Ensures (fail e : Compile α) p Q := h

/-! ### Steps that only read -/

theorem ensures_lift {result : Except CompileError α}
    (error : ∀ e, result = .error e → e.isInternal = false)
    (ok : ∀ a, result = .ok a → Q a p) : Ensures (lift result) p Q := by
  cases result with
  | ok a => exact ok a rfl
  | error e => exact error e rfl

/-- A tree that cannot be built is the compiler's fault, so it has to be one that can. -/
theorem ensures_tree {result : Except Sql.TreeError α} {a : α} (built : result = .ok a)
    (h : Q a p) : Ensures (tree result) p Q := by
  subst built
  exact h

theorem ensures_lift_bind {result : Except CompileError α} {next : α → Compile β}
    (error : ∀ e, result = .error e → e.isInternal = false)
    (rest : ∀ a, result = .ok a → Ensures (next a) p R) :
    Ensures (lift result >>= next) p R := by
  refine (ensures_lift error (Q := fun a after => result = .ok a ∧ after = p)
    (fun a h => ⟨h, rfl⟩)).bind ?_
  rintro a _ ⟨h, rfl⟩
  exact rest a h

/-- A failed lookup is the request's fault. -/
theorem ensures_lookup_bind {result : Except LookupError α} {next : α → Compile β}
    (rest : ∀ a, result = .ok a → Ensures (next a) p R) :
    Ensures (lookup result >>= next) p R := by
  refine ensures_lift_bind ?_ ?_
  · rintro e h
    cases result with
    | ok a => cases h
    | error e => cases h; rfl
  · intro a h
    cases result with
    | ok b => cases h; exact rest a rfl
    | error e => cases h

theorem ensures_tree_bind {result : Except Sql.TreeError α} {a : α} {next : α → Compile β}
    (built : result = .ok a) (rest : Ensures (next a) p R) :
    Ensures (tree result >>= next) p R := by
  subst built
  exact rest

theorem ensures_draft_bind {next : Draft → Compile β} (rest : Ensures (next p.draft) p R) :
    Ensures (draft >>= next) p R := rest

/-! ### Steps that change the progress -/

theorem ensures_changeDraft_bind {change : Draft → Draft} {next : Unit → Compile β}
    (rest : Ensures (next ()) { p with draft := change p.draft } R) :
    Ensures (changeDraft change >>= next) p R := rest

theorem ensures_newAlias_bind {next : TableAlias → Compile β}
    (rest : Ensures (next ⟨p.names.tables + 1⟩)
      ⟨⟨p.names.tables + 1, p.names.parameters⟩, p.draft⟩ R) :
    Ensures (newAlias >>= next) p R := rest

theorem ensures_newParameter_bind {value : Sql.Value} {next : Sql.Parameter → Compile β}
    (rest : Ensures (next ⟨Names.parameterName (p.names.parameters + 1), value⟩)
      ⟨⟨p.names.tables, p.names.parameters + 1⟩, p.draft⟩ R) :
    Ensures (newParameter value >>= next) p R := rest

theorem ensures_newTable_bind {schema : Schema} {resourceType : String}
    {next : Sql.Table → Compile β}
    (rest : ∀ table, schema.table resourceType ⟨p.names.tables + 1⟩ = .ok table →
      Ensures (next table) ⟨⟨p.names.tables + 1, p.names.parameters⟩, p.draft⟩ R) :
    Ensures (newTable schema resourceType >>= next) p R := by
  unfold newTable
  rw [bind_assoc]
  exact ensures_newAlias_bind (ensures_lookup_bind rest)

/-- The query inside starts with an empty draft and hands back only the names it took. -/
theorem ensures_inner_bind {action : Compile α} {next : α × Draft → Compile β}
    (first : Ensures action ⟨p.names, Draft.empty⟩ Q)
    (rest : ∀ a after, Q a after →
      Ensures (next (a, after.draft)) ⟨after.names, p.draft⟩ R) :
    Ensures (inner action >>= next) p R := by
  have contract : Ensures (inner action) p (fun result after =>
      ∃ end_, Q result.1 end_ ∧ result.2 = end_.draft ∧ after = ⟨end_.names, p.draft⟩) := by
    unfold Ensures at first ⊢
    unfold inner
    cases hrun : action ⟨p.names, Draft.empty⟩ with
    | error e =>
      rw [hrun] at first
      exact first
    | ok result =>
      rw [hrun] at first
      exact ⟨result.2, first, rfl, rfl⟩
  refine contract.bind ?_
  rintro ⟨a, d⟩ _ ⟨end_, holds, rfl, rfl⟩
  exact rest a end_ holds

/-! ### Whole statements -/

/-- What a computation ensures from the beginning holds of what it returns. -/
theorem Ensures.run {action : Compile α} (contract : Ensures action Progress.start Q) {a : α}
    (h : run action = .ok a) : ∃ after, Q a after := by
  unfold Compile.run at h
  split at h
  · rename_i b after hrun
    cases h
    exact ⟨after, contract.of_ok hrun⟩
  · cases h

end ResourceQuery.Compile
