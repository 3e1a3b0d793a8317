import ResourceQuery.Proofs.Compile.Ensures

/-!
# Successful runs

What holds of the result whenever a computation of the compiler succeeds.  Unlike `Compile.Ensures`,
nothing is said about failures, so that nothing has to be known about what is compiled: neither which
sources there are nor where references lead.

## Main Definitions

- `Compile.Yields`: what holds of every successful run of a computation.

## Main Statements

- `Compile.Yields.bind`: sequential composition, and one rule for each primitive.
-/

namespace ResourceQuery

open Sql (Table Parameter TableAlias)

namespace Compile

variable {α β : Type}

/-- **What holds of every successful run** of a computation begun at some progress. -/
def Yields (action : Compile α) (p : Progress) (Q : α → Progress → Prop) : Prop :=
  ∀ a q, action p = .ok (a, q) → Q a q

namespace Yields

variable {action : Compile α} {p : Progress} {Q : α → Progress → Prop}

theorem ran (action : Compile α) (p : Progress) :
    Yields action p (fun a q => action p = .ok (a, q)) :=
  fun _ _ ran => ran

theorem mono (contract : Yields action p Q) {weaker : α → Progress → Prop}
    (h : ∀ a q, Q a q → weaker a q) : Yields action p weaker :=
  fun a q ran => h a q (contract a q ran)

theorem and (contract : Yields action p Q) {R : α → Progress → Prop} (other : Yields action p R) :
    Yields action p (fun a q => Q a q ∧ R a q) :=
  fun a q ran => ⟨contract a q ran, other a q ran⟩

/-- **Sequential composition.** -/
theorem bind {next : α → Compile β} {R : β → Progress → Prop} (first : Yields action p Q)
    (rest : ∀ a q, Q a q → Yields (next a) q R) : Yields (action >>= next) p R := by
  intro b r ran
  change StateT.bind action next p = .ok (b, r) at ran
  simp only [StateT.bind] at ran
  cases h : action p with
  | error e =>
    rw [h] at ran
    cases ran
  | ok result =>
    obtain ⟨a, q⟩ := result
    rw [h] at ran
    exact rest a q (first a q h) b r ran

theorem of_ensures (contract : Ensures action p Q) : Yields action p Q :=
  fun _ _ ran => contract.of_ok ran

/-- What holds of every run from the beginning holds of what is returned. -/
theorem run (contract : Yields action Progress.start Q) {a : α} (h : Compile.run action = .ok a) :
    ∃ q, action Progress.start = .ok (a, q) ∧ Q a q := by
  unfold Compile.run at h
  split at h
  · rename_i b q ran
    cases h
    exact ⟨q, ran, contract a q ran⟩
  · cases h

end Yields

variable {p : Progress} {Q : α → Progress → Prop} {R : β → Progress → Prop}

theorem yields_pure {a : α} (h : Q a p) : Yields (pure a) p Q := by
  intro b q ran
  cases ran
  exact h

theorem yields_fail {e : CompileError} : Yields (fail e : Compile α) p Q := by
  intro b q ran
  cases ran

theorem yields_lift {result : Except CompileError α} (ok : ∀ a, result = .ok a → Q a p) :
    Yields (lift result) p Q := by
  intro a q ran
  cases result with
  | error e => cases ran
  | ok b =>
    cases ran
    exact ok a rfl

theorem yields_lookup {result : Except LookupError α} (ok : ∀ a, result = .ok a → Q a p) :
    Yields (lookup result) p Q := by
  refine yields_lift fun a h => ?_
  cases result with
  | error e => cases h
  | ok b =>
    cases h
    exact ok a rfl

theorem yields_tree {result : Except Sql.TreeError α} (ok : ∀ a, result = .ok a → Q a p) :
    Yields (tree result) p Q := by
  refine yields_lift fun a h => ?_
  cases result with
  | error e => cases h
  | ok b =>
    cases h
    exact ok a rfl

theorem yields_lift_bind {result : Except CompileError α} {next : α → Compile β}
    (rest : ∀ a, result = .ok a → Yields (next a) p R) : Yields (lift result >>= next) p R := by
  refine (yields_lift (Q := fun a q => result = .ok a ∧ q = p) fun a h => ⟨h, rfl⟩).bind ?_
  rintro a _ ⟨h, rfl⟩
  exact rest a h

theorem yields_lookup_bind {result : Except LookupError α} {next : α → Compile β}
    (rest : ∀ a, result = .ok a → Yields (next a) p R) : Yields (lookup result >>= next) p R := by
  refine (yields_lookup (Q := fun a q => result = .ok a ∧ q = p) fun a h => ⟨h, rfl⟩).bind ?_
  rintro a _ ⟨h, rfl⟩
  exact rest a h

theorem yields_tree_bind {result : Except Sql.TreeError α} {next : α → Compile β}
    (rest : ∀ a, result = .ok a → Yields (next a) p R) : Yields (tree result >>= next) p R := by
  refine (yields_tree (Q := fun a q => result = .ok a ∧ q = p) fun a h => ⟨h, rfl⟩).bind ?_
  rintro a _ ⟨h, rfl⟩
  exact rest a h

theorem yields_draft_bind {next : Draft → Compile β} (rest : Yields (next p.draft) p R) :
    Yields (draft >>= next) p R := rest

theorem yields_changeDraft {change : Draft → Draft} {Q : Unit → Progress → Prop}
    (h : Q () ⟨p.names, change p.draft⟩) : Yields (changeDraft change) p Q := by
  intro a q ran
  cases ran
  exact h

theorem yields_changeDraft_bind {change : Draft → Draft} {next : Unit → Compile β}
    (rest : Yields (next ()) ⟨p.names, change p.draft⟩ R) :
    Yields (changeDraft change >>= next) p R := rest

theorem yields_newAlias_bind {next : TableAlias → Compile β}
    (rest : Yields (next ⟨p.names.tables + 1⟩)
      ⟨⟨p.names.tables + 1, p.names.parameters⟩, p.draft⟩ R) :
    Yields (newAlias >>= next) p R := rest

theorem yields_newParameter_bind {value : Sql.Value} {next : Parameter → Compile β}
    (rest : Yields (next ⟨Names.parameterName (p.names.parameters + 1), value⟩)
      ⟨⟨p.names.tables, p.names.parameters + 1⟩, p.draft⟩ R) :
    Yields (newParameter value >>= next) p R := rest

theorem yields_newTable_bind {schema : Schema} {resourceType : String} {next : Table → Compile β}
    (rest : ∀ table, schema.table resourceType ⟨p.names.tables + 1⟩ = .ok table →
      Yields (next table) ⟨⟨p.names.tables + 1, p.names.parameters⟩, p.draft⟩ R) :
    Yields (newTable schema resourceType >>= next) p R := by
  unfold newTable
  rw [bind_assoc]
  exact yields_newAlias_bind (yields_lookup_bind rest)

/-- The query inside starts with an empty draft and hands back only the names it took. -/
theorem yields_inner_bind {action : Compile α} {next : α × Draft → Compile β}
    (first : Yields action ⟨p.names, Draft.empty⟩ Q)
    (rest : ∀ a last, Q a last → Yields (next (a, last.draft)) ⟨last.names, p.draft⟩ R) :
    Yields (inner action >>= next) p R := by
  have contract : Yields (inner action) p (fun result q =>
      ∃ last, Q result.1 last ∧ result.2 = last.draft ∧ q = ⟨last.names, p.draft⟩) := by
    intro result q ran
    unfold inner at ran
    cases h : action ⟨p.names, Draft.empty⟩ with
    | error e =>
      simp only [h] at ran
      cases ran
    | ok found =>
      simp only [h] at ran
      cases ran
      exact ⟨found.2, first _ _ h, rfl, rfl⟩
  refine contract.bind ?_
  rintro ⟨a, d⟩ _ ⟨last, holds, rfl, rfl⟩
  exact rest a last holds

end Compile

end ResourceQuery
